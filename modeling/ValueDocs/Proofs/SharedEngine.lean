import Mathlib.Data.List.DropRight
import Mathlib.Logic.Relation
import ValueDocs.Proofs.DiagnosticOrder

/-!
# Proofs/SharedEngine — one engine, many clients

Any number of clients share an engine: they emit diagnostics, one or several, and drain it.  The
engine serves one client at a time, for one diagnostic or for one draining, so between two
diagnostics that a client emits together other clients may emit and drain.

However the clients take turns, the drained lists cut what was emitted into consecutive batches, and
what the engine holds is the rest (`SharedEngine.IsCut`).  So no diagnostic is lost or handed over
twice, and each drained list is its batch in the order of places, stably sorted
(`SharedEngine.isAccounted_of_reaches`).
-/

namespace ValueDocs

open Diagnostic (atKey precedes sort)

/-- What a client asks of an engine. -/
inductive Call where
  | emit (d : Diagnostic)
  | emitAll (ds : List Diagnostic)
  | drain

/-- What is done to an engine while it serves one client. -/
inductive Access where
  | emit (d : Diagnostic)
  | drain
  deriving DecidableEq

namespace Access

/-- The diagnostic that comes to the engine. -/
def diagnostic? : Access → Option Diagnostic
  | emit d => some d
  | drain => none

end Access

/-- What a client does next, and what it does to the engine by this; `calls` is what it has still to
ask.  Several diagnostics are emitted one at a time. -/
inductive Client.Step : (calls : List Call) → Option Access → List Call → Prop
  | emit (d : Diagnostic) (rest : List Call) : Step (.emit d :: rest) (some (.emit d)) rest
  | emitNext (d : Diagnostic) (ds : List Diagnostic) (rest : List Call) :
    Step (.emitAll (d :: ds) :: rest) (some (.emit d)) (.emitAll ds :: rest)
  | emittedAll (rest : List Call) : Step (.emitAll [] :: rest) none rest
  | drain (rest : List Call) : Step (.drain :: rest) (some .drain) rest

/-- An engine with its clients, and what happened to it. -/
structure SharedEngine where
  engine : Engine
  /-- What each client has still to ask. -/
  clients : List (List Call)
  /-- What was done to the engine, in turn. -/
  history : List Access := []
  /-- The lists that were handed over, in turn. -/
  drained : List (List Diagnostic) := []

namespace SharedEngine

/-- An empty engine whose clients are about to begin. -/
def start (clients : List (List Call)) : SharedEngine := ⟨{}, clients, [], []⟩

/-- The state after the engine served a client. -/
def serve (s : SharedEngine) : Access → SharedEngine
  | .emit d => { s with engine := s.engine.emit d, history := s.history ++ [.emit d] }
  | .drain =>
    { s with
      engine := s.engine.drain.2
      history := s.history ++ [.drain]
      drained := s.drained ++ [s.engine.drain.1] }

/-- One of the clients goes on. -/
inductive Step (s : SharedEngine) : SharedEngine → Prop
  | client {k : Nat} {calls calls' : List Call} {access : Option Access}
    (hk : s.clients[k]? = some calls) (h : Client.Step calls access calls') :
    Step s { access.elim s s.serve with clients := s.clients.set k calls' }

/-- The clients go on, one or another, any number of times. -/
abbrev Reaches : SharedEngine → SharedEngine → Prop := Relation.ReflTransGen Step

/-- What was emitted, in turn. -/
def emitted (s : SharedEngine) : List Diagnostic := s.history.filterMap Access.diagnostic?

/-- What was emitted since the engine was last drained. -/
def emittedLast (s : SharedEngine) : List Diagnostic :=
  (s.history.rtakeWhile (· ≠ .drain)).filterMap Access.diagnostic?

/-! ## The cut

What was emitted falls into one batch for each drained list, and the rest. -/

/-- Whether what was emitted is some batches followed by what the engine holds, where each batch was
handed over, sorted, in its turn. -/
structure IsCut (s : SharedEngine) (batches : List (List Diagnostic)) : Prop where
  emitted : s.emitted = batches.flatten ++ s.engine.problems
  drained : s.drained = batches.map sort
  last : s.engine.problems = s.emittedLast

variable {s s' : SharedEngine} {batches : List (List Diagnostic)}

theorem isCut_start (clients : List (List Call)) : (start clients).IsCut [] := ⟨rfl, rfl, rfl⟩

/-- A diagnostic joins what the engine holds. -/
theorem IsCut.serve_emit (h : s.IsCut batches) (d : Diagnostic) :
    (s.serve (.emit d)).IsCut batches where
  emitted := by
    rw [SharedEngine.emitted, serve, List.filterMap_append, ← SharedEngine.emitted, h.emitted,
      List.append_assoc]
    rfl
  drained := h.drained
  last := by
    rw [emittedLast, serve, List.rtakeWhile_concat_pos _ _ _ (by simp), List.filterMap_append,
      ← emittedLast, ← h.last]
    rfl

/-- What the engine holds becomes the last batch. -/
theorem IsCut.serve_drain (h : s.IsCut batches) :
    (s.serve .drain).IsCut (batches ++ [s.engine.problems]) where
  emitted := by
    rw [SharedEngine.emitted, serve, List.filterMap_append, ← SharedEngine.emitted, h.emitted,
      List.flatten_append, List.flatten_singleton]
    rfl
  drained := by
    rw [serve, List.map_append, ← h.drained]
    rfl
  last := by
    rw [emittedLast, serve, List.rtakeWhile_concat_neg _ _ _ (by decide)]
    rfl

/-- **A step keeps the cut**, and makes at most one more batch. -/
theorem IsCut.step (h : s.IsCut batches) (hstep : Step s s') : ∃ batches', s'.IsCut batches' := by
  obtain @⟨k, calls, calls', access, -, -⟩ := hstep
  -- the calls that are left to the clients do not count
  have hserved : ∃ batches', (access.elim s s.serve).IsCut batches' := by
    rcases access with _ | d | _
    · exact ⟨batches, h⟩
    · exact ⟨batches, h.serve_emit d⟩
    · exact ⟨_, h.serve_drain⟩
  obtain ⟨batches', hcut⟩ := hserved
  exact ⟨batches', hcut.emitted, hcut.drained, hcut.last⟩

/-- **Every run cuts what was emitted into batches.** -/
theorem exists_isCut {clients : List (List Call)} (h : (start clients).Reaches s) :
    ∃ batches, s.IsCut batches := by
  induction h with
  | refl => exact ⟨[], isCut_start clients⟩
  | tail _ hstep ih =>
    obtain ⟨batches, hcut⟩ := ih
    exact hcut.step hstep

/-- Sorting each batch moves diagnostics only within it. -/
theorem flatten_map_sort_perm (batches : List (List Diagnostic)) :
    (batches.map sort).flatten.Perm batches.flatten := by
  induction batches with
  | nil => exact .refl _
  | cons batch batches ih => exact (List.mergeSort_perm ..).append ih

/-! ## What becomes of the diagnostics -/

/-- Whether every diagnostic that was emitted is accounted for. -/
structure IsAccounted (s : SharedEngine) : Prop where
  /-- Each was handed over once, or is held. -/
  conserved : s.emitted.Perm (s.drained.flatten ++ s.engine.problems)
  /-- Those that are held stand in the order they were emitted in since the last draining. -/
  held : s.engine.problems = s.emittedLast
  count : ∀ kind, s.engine.count (some kind) =
    (s.engine.problems.filter fun d => d.kind = kind).length
  /-- Of each kind, those that are held and those that were handed over are all. -/
  count_add : ∀ kind, s.engine.count (some kind) +
    s.drained.flatten.countP (fun d => d.kind = kind) =
      s.emitted.countP fun d => d.kind = kind
  ordered : ∀ ds ∈ s.drained, ds.Pairwise fun d e => precedes d e = true
  /-- The drained lists hold consecutive pieces of what was emitted, and diagnostics at one place
  stand in the order they were emitted in. -/
  stable : ∃ batches, s.emitted = batches.flatten ++ s.engine.problems ∧
    List.Forall₂ (fun batch ds => ds.Perm batch ∧ ∀ k, atKey k ds = atKey k batch) batches s.drained

/-- **The engine loses and duplicates nothing**, whatever turns its clients take. -/
theorem isAccounted_of_reaches {clients : List (List Call)} (h : (start clients).Reaches s) :
    s.IsAccounted := by
  obtain ⟨batches, hcut⟩ := exists_isCut h
  have hconserved : s.emitted.Perm (s.drained.flatten ++ s.engine.problems) := by
    rw [hcut.emitted, hcut.drained]
    exact (flatten_map_sort_perm batches).symm.append_right _
  refine ⟨hconserved, hcut.last, fun kind => List.countP_eq_length_filter, fun kind => ?_,
    fun ds hds => ?_, batches, hcut.emitted, ?_⟩
  · rw [hconserved.countP_eq, List.countP_append, Nat.add_comm]
    rfl
  · rw [hcut.drained] at hds
    obtain ⟨batch, -, rfl⟩ := List.mem_map.1 hds
    exact Diagnostic.pairwise_sort batch
  · rw [hcut.drained, List.forall₂_map_right_iff]
    exact List.forall₂_same.2 fun batch _ =>
      ⟨List.mergeSort_perm .., fun k => Diagnostic.atKey_sort k batch⟩

/-- The second client drains between the two diagnostics that the first one emits together. -/
theorem isAccounted_of_reaches_drainBetween :
    ∃ d e : Diagnostic, ∃ s : SharedEngine,
      (start [[.emitAll [d, e]], [.drain]]).Reaches s ∧ s.emitted = [d, e] ∧
      s.drained = [[d]] ∧ s.engine.problems = [e] ∧ s.IsAccounted := by
  let d : Diagnostic := { kind := .unknownValue, summary := "first" }
  let e : Diagnostic := { kind := .unresolvedReference, summary := "second" }
  let s₀ := start [[.emitAll [d, e]], [.drain]]
  let s₁ : SharedEngine := ⟨⟨[d]⟩, [[.emitAll [e]], [.drain]], [.emit d], []⟩
  let s₂ : SharedEngine := ⟨{}, [[.emitAll [e]], []], [.emit d, .drain], [sort [d]]⟩
  let s₃ : SharedEngine := ⟨⟨[e]⟩, [[.emitAll []], []], [.emit d, .drain, .emit e], [sort [d]]⟩
  have h₁ : Step s₀ s₁ := .client (k := 0) rfl (.emitNext d [e] [])
  have h₂ : Step s₁ s₂ := .client (k := 1) rfl (.drain [])
  have h₃ : Step s₂ s₃ := .client (k := 0) rfl (.emitNext e [] [])
  have hreaches : s₀.Reaches s₃ := ((Relation.ReflTransGen.single h₁).tail h₂).tail h₃
  have hsort : sort [d] = [d] := List.mergeSort_singleton d
  exact ⟨d, e, s₃, hreaches, rfl, congrArg (fun ds => [ds]) hsort, rfl,
    isAccounted_of_reaches hreaches⟩

end SharedEngine
end ValueDocs
