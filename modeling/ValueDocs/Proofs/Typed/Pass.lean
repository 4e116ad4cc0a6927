import Mathlib.Algebra.Order.Ring.Unbundled.Rat
import Mathlib.Data.String.Basic
import ValueDocs.Proofs.LoosePass
import ValueDocs.Proofs.Typed.Resolution

/-!
# Proofs/Typed/Pass — the pass on texts is the pass of the checks

The pass that the checks run takes records that hold anything.  On names and sources that are texts
and places that are whole numbers it is the pass of `ValueDocs.Pass`, step by step, and so are its
results and its diagnostics (`Pass.run_toLoose`), and what an engine hands over after several passes
(`Pass.runAll_toLoose`, `Engine.drain_toLoose`).  So what is proved of that pass is proved of the
checks.
-/

namespace ValueDocs

/-! ## Suggestions -/

namespace Suggestion

section Least

variable {α β κ : Type} [LinearOrder κ] {key : α → Json} {f : β → α} {precedes : β → β → Bool}
  {k : β → κ}

/-- The least of one thing and of some others, sought from left to right. -/
theorem foldlM_lesser (hkey : ∀ a b, (key (f a)).before? (key (f b)) = some (precedes a b))
    (hprecedes : ∀ a b, precedes a b = true ↔ k a < k b) (bs : List β) (b : β) :
    (bs.map f).foldlM (Json.lesser key) (f b) =
      .ok (f (match leastBy precedes bs with
        | none => b
        | some e => if precedes e b then e else b)) := by
  induction bs generalizing b with
  | nil => rfl
  | cons c bs ih =>
    have hstep : Json.lesser key (f b) (f c) = .ok (f (if precedes c b then c else b)) := by
      rw [Json.lesser, hkey]
      dsimp only
      split <;> rfl
    rw [List.map_cons, List.foldlM_cons, hstep]
    refine (ih _).trans (congrArg (Except.ok ∘ f) ?_)
    rw [leastBy]
    cases leastBy precedes bs with
    | none => rfl
    | some e =>
      simp only [hprecedes]
      by_cases hcb : k c < k b <;> by_cases hec : k e < k c
      · simp [hcb, hec, hec.trans hcb]
      · simp [hcb, hec]
      · simp [hcb, hec]
      · have heb : ¬k e < k b := fun h => hec (lt_of_lt_of_le h (not_lt.1 hcb))
        simp [hcb, hec, heb]

/-- The least of some things is the same from left to right as from right to left. -/
theorem leastOn_map (hkey : ∀ a b, (key (f a)).before? (key (f b)) = some (precedes a b))
    (hprecedes : ∀ a b, precedes a b = true ↔ k a < k b) (bs : List β) :
    Json.leastOn key (bs.map f) = .ok ((leastBy precedes bs).map f) := by
  cases bs with
  | nil => rfl
  | cons b bs =>
    rw [List.map_cons, Json.leastOn, foldlM_lesser hkey hprecedes, leastBy]
    cases leastBy precedes bs with
    | none => rfl
    | some e =>
      dsimp only
      split <;> rfl

end Least

/-- A declared value with its name, as a record holds it. -/
def named (d : DeclaredValue) : String × Loose.DeclaredValue := (d.name, d.toLoose)

theorem leastBy_map {α β : Type} {precedes : α → α → Bool} (f : β → α) (bs : List β) :
    leastBy precedes (bs.map f) = (leastBy (fun a b => precedes (f a) (f b)) bs).map f := by
  induction bs with
  | nil => rfl
  | cons b bs ih =>
    rw [List.map_cons, leastBy, ih, leastBy]
    cases leastBy (fun a b => precedes (f a) (f b)) bs with
    | none => rfl
    | some e =>
      simp only [Option.map_some]
      split <;> rfl

/-- Something done to the nearest values. -/
def Nearest.map {α β : Type} (f : α → β) (n : Nearest α) : Nearest β := ⟨n.distance, n.values.map f⟩

theorem nearestBy_map {α β : Type} (distance : α → Nat) (f : β → α) (bs : List β) :
    nearestBy distance (bs.map f) = (nearestBy (distance ∘ f) bs).map (·.map f) := by
  suffices h : ∀ n : Option (Nearest β),
      (bs.map f).foldl (fun n d => some (Nearest.add (distance d) d n)) (n.map (·.map f)) =
        (bs.foldl (fun n d => some (Nearest.add ((distance ∘ f) d) d n)) n).map (·.map f) from
    h none
  induction bs with
  | nil => exact fun n => rfl
  | cons b bs ih =>
    intro n
    rw [List.map_cons, List.foldl_cons, List.foldl_cons, ← ih]
    refine congrArg (fun m => List.foldl _ m _) ?_
    cases n with
    | none => rfl
    | some n =>
      simp only [Option.map_some, Nearest.add, Nearest.map, Function.comp_apply]
      split
      · rfl
      · split <;> simp

theorem leastOn_order (ds : List DeclaredValue) :
    Json.leastOn (fun d : String × Loose.DeclaredValue => d.2.order) (ds.map named) =
      .ok ((leastBy (fun a b => a.order.before b.order) ds).map named) :=
  leastOn_map (k := fun d => d.order.value) (fun a b => Rank.before?_toJson a.order b.order)
    (fun _ _ => Rank.before_iff) ds

theorem pick?_named (tieBreak : TieBreak) (ds : List DeclaredValue) :
    Loose.Suggestion.pick? tieBreak (ds.map named) =
      .ok ((pick? tieBreak ds).map (·.name)) := by
  match ds with
  | [] => cases tieBreak <;> rfl
  | [d] => rfl
  | d :: e :: ds =>
    cases tieBreak with
    | none => rfl
    | declarationOrder =>
      change (do
        return (← Json.leastOn (fun d : String × Loose.DeclaredValue => d.2.order)
          ((d :: e :: ds).map named)).map Prod.fst) = _
      rw [leastOn_order]
      change Except.ok (((leastBy (fun a b : DeclaredValue => a.order.before b.order)
        (d :: e :: ds)).map named).map Prod.fst) = _
      rw [Option.map_map]
      rfl
    | alphabetical =>
      change Except.ok ((leastBy (fun a b : String × Loose.DeclaredValue => decide (a.1 < b.1))
        ((d :: e :: ds).map named)).map Prod.fst) = _
      rw [leastBy_map, Option.map_map]
      rfl

theorem bestMatch?_named (config : ValuesConfig) (name : String) (ds : List DeclaredValue) :
    Loose.Suggestion.bestMatch? config name (ds.map named) = .ok (bestMatch? config name ds) := by
  have hnearest : nearestBy (fun d : String × Loose.DeclaredValue =>
      keyDistance config.caseSensitive name d.1) (ds.map named) =
      (nearestBy (fun d : DeclaredValue => keyDistance config.caseSensitive name d.name) ds).map
        (·.map named) := nearestBy_map _ _ _
  simp only [Loose.Suggestion.bestMatch?, bestMatch?, hnearest, nearest?, bind]
  cases nearestBy (fun d : DeclaredValue => keyDistance config.caseSensitive name d.name) ds with
  | none => rfl
  | some n =>
    simp only [Option.map_some, Nearest.map, pick?_named, Option.bind]
    split <;> rfl

theorem solution_toLoose (config : ValuesConfig) (name : String) (range : Option Range)
    (ds : List DeclaredValue) :
    Loose.Suggestion.solution config (.str name) (range.map Range.toLoose)
      (ds.map DeclaredValue.toLoose) = .ok (solution config name range ds).toLoose := by
  have hnamed : (ds.map DeclaredValue.toLoose).mapM (fun d => do
      return (← Loose.Suggestion.nameText config.caseSensitive d.name, d)) =
        Except.ok (ds.map named) := by
    rw [Outcome.mapM_eq_ok_iff, List.forall₂_map_left_iff, List.forall₂_map_right_iff]
    exact List.forall₂_same.2 fun d _ => rfl
  have hbest : Loose.Suggestion.proposal? config (.str name) (ds.map named) =
      .ok (bestMatch? config name ds) := by
    cases ds with
    | nil => rfl
    | cons d ds => exact bestMatch?_named config name (d :: ds)
  rw [Loose.Suggestion.solution, hnamed]
  refine Outcome.bind_eq_ok_iff.2 ⟨_, rfl, Outcome.bind_eq_ok_iff.2 ⟨_, hbest, ?_⟩⟩
  rw [solution]
  cases bestMatch? config name ds with
  | some best => rfl
  | none =>
    have hknown : (ds.map named).map (·.1) = ds.map (·.name) := List.map_map
    simp only [hknown]
    rfl

end Suggestion

/-! ## Diagnostics -/

namespace Diagnostic

theorem unknownValue_toLoose (config : ValuesConfig) (declared : List DeclaredValue)
    (symbol : String) (v : DocumentedValue) :
    Loose.Diagnostic.unknownValue config (declared.map DeclaredValue.toLoose) (.str symbol)
      v.toLoose = .ok (unknownValue config declared symbol v).toLoose := by
  have hsolution := Suggestion.solution_toLoose config v.name v.nameRange declared
  exact Outcome.bind_eq_ok_iff.2 ⟨_, hsolution, rfl⟩

theorem sortKey_toLoose (d : Diagnostic) :
    Loose.Diagnostic.sortKey d.toLoose = d.sortKey.toJson := by
  obtain ⟨kind, summary, source, range, solutions, severity⟩ := d
  have hsource : (Json.ofText? source).orElse (.str "") = .str (source.getD "") := by
    cases source with
    | none => rfl
    | some s => by_cases h : s = "" <;> simp [Json.ofText?, Json.orElse, Json.truthy, h]
  cases range <;> simp only [toLoose, Loose.Diagnostic.sortKey, hsource] <;> rfl

theorem decide_lt_of_ne {α : Type} [LinearOrder α] {x y : α} (h : x ≠ y) :
    decide (x < y) = !decide (y < x) := by
  rw [← decide_not, decide_eq_decide, not_lt]
  exact h.le_iff_lt.symm

/-- Places are compared field by field. -/
theorem SortKey.before?_toJson (a b : SortKey) :
    b.toJson.before? a.toJson = some (!a.le b) := by
  simp only [toJson, Json.before?_arr_str, Json.before?_arr_int, Json.before?_arr_nil, le, ne_eq,
    ite_not, eq_comm (a := a.source), eq_comm (a := a.line), eq_comm (a := a.column),
    eq_comm (a := a.kind)]
  split
  · split
    · split
      · split
        · split
          · next h => simp [h]
          · rw [← decide_not, decide_eq_decide.2 not_le]
        · next h => rw [decide_lt_of_ne h]
      · next h => rw [decide_lt_of_ne h]
    · next h => rw [decide_lt_of_ne h]
  · next h => rw [decide_lt_of_ne h]

theorem sort_toLoose (ds : List Diagnostic) :
    Loose.Diagnostic.sort (ds.map toLoose) = .ok ((sort ds).map toLoose) :=
  Json.sortedOn_map fun a _ b _ => by
    rw [sortKey_toLoose, sortKey_toLoose, SortKey.before?_toJson]

theorem isDefinite_sortKey (d : Diagnostic) : (Loose.Diagnostic.sortKey d.toLoose).IsDefinite := by
  rw [sortKey_toLoose, Json.IsDefinite]
  simp [SortKey.toJson, Json.marks, Json.itemMarks]

end Diagnostic

/-! ## The pass -/

namespace Pass

variable (input : PassInput)

theorem contextPath_toLoose : Loose.Pass.contextPath input.toLoose = contextPath input := rfl

theorem resolve_toLoose (path : String) (vs : List ReconciledValue) :
    Loose.Pass.resolve input.toLoose.resolver path (vs.map ReconciledValue.toLoose) =
      .ok (Resolution.Reported.toLoose (List.map ReconciledValue.toLoose)
        (match input.resolver with
          | some resolver => Resolution.resolveAll resolver path vs
          | none => (vs, []))) := by
  rw [show input.toLoose.resolver = input.resolver.map Resolver.toLoose from rfl]
  cases input.resolver with
  | none => rfl
  | some resolver => exact Resolution.resolveAll_toLoose resolver path vs

/-- **A pass over values of texts is the pass of the checks over them.** -/
theorem align_toLoose (documented : List DocumentedValue) (declared : List DeclaredValue) :
    Loose.Pass.align input.toLoose (documented.map DocumentedValue.toLoose)
      (declared.map DeclaredValue.toLoose) = .ok (align input documented declared).toLoose := by
  have hreconcile := Reconciliation.reconcile_toLoose input.config.caseSensitive documented declared
  have hunknown (vs : List DocumentedValue) : (vs.map DocumentedValue.toLoose).mapM
      (Loose.Diagnostic.unknownValue input.config (declared.map DeclaredValue.toLoose)
        (.str input.symbol)) =
          .ok ((vs.map (Diagnostic.unknownValue input.config declared input.symbol)).map
            Diagnostic.toLoose) := by
    rw [Outcome.mapM_eq_ok_iff, List.map_map, List.forall₂_map_left_iff,
      List.forall₂_map_right_iff]
    exact List.forall₂_same.2 fun v _ => Diagnostic.unknownValue_toLoose _ _ _ v
  refine Outcome.bind_eq_ok_iff.2 ⟨_, hreconcile, Outcome.bind_eq_ok_iff.2 ⟨_, hunknown _,
    Outcome.bind_eq_ok_iff.2 ⟨_, resolve_toLoose input _ _, Outcome.bind_eq_ok_iff.2
      ⟨_, RenderPlan.ofValues_toLoose input.variant input.extraAttributes _,
        Outcome.bind_eq_ok_iff.2 ⟨_, ?_, rfl⟩⟩⟩⟩⟩
  rw [← List.map_append]
  exact Diagnostic.sort_toLoose _

/-- **What a pass over texts reports** are diagnostics of texts, whatever resolver it has. -/
theorem exists_toLoose_of_mem {input : Loose.PassInput} {documented : List DocumentedValue}
    {declared : List DeclaredValue} {r : Loose.PassResult}
    (h : Loose.Pass.align input (documented.map DocumentedValue.toLoose)
      (declared.map DeclaredValue.toLoose) = .ok r) {d : Loose.Diagnostic}
    (hd : d ∈ r.diagnostics) : ∃ d' : Diagnostic, d = d'.toLoose := by
  have hreconciliation : r.reconciliation =
      (Reconciliation.reconcile input.config.caseSensitive documented declared).toLoose := by
    obtain ⟨_, _, hreconcile, -⟩ := Loose.Pass.exists_of_align h
    rw [Reconciliation.reconcile_toLoose] at hreconcile
    exact (Except.ok.inj hreconcile).symm
  have hreported := Loose.Pass.exists_of_mem_diagnostics h hd
  rw [hreconciliation] at hreported
  rcases hreported with ⟨_, hv, hd⟩ | ⟨_, hv, _, he, _, hb, reference, hd⟩
  · obtain ⟨v, _, rfl⟩ := List.mem_map.1 hv
    have hunknown := Diagnostic.unknownValue_toLoose input.config declared input.symbol.display v
    exact ⟨_, Except.ok.inj (hd.symm.trans hunknown)⟩
  · obtain ⟨v, _, rfl⟩ := List.mem_map.1 hv
    obtain ⟨e, _, rfl⟩ := List.mem_map.1 he
    obtain ⟨b, _, rfl⟩ := List.mem_map.1 hb
    rw [show b.toLoose.source.orElse v.toLoose.source = _ from Resolution.orElse_ofText? b v,
      Resolution.unresolved_toLoose] at hd
    exact ⟨_, (Except.ok.inj hd).symm⟩

/-- What a pass over texts reports stays as it is when it is sorted again. -/
theorem sort_diagnostics {input : Loose.PassInput} {documented : List DocumentedValue}
    {declared : List DeclaredValue} {r : Loose.PassResult}
    (h : Loose.Pass.align input (documented.map DocumentedValue.toLoose)
      (declared.map DeclaredValue.toLoose) = .ok r) :
    Loose.Diagnostic.sort r.diagnostics = .ok r.diagnostics := by
  obtain ⟨unknown, unresolved, -, -, -, -, hds, -⟩ := Loose.Pass.exists_of_align h
  refine Json.sortedOn_of_sortedOn hds fun d hd => ?_
  obtain ⟨-, hsorted⟩ := Json.sortedOn_eq_ok_iff.1 hds
  obtain ⟨d', rfl⟩ := exists_toLoose_of_mem h
    (hsorted ▸ (Json.sortOn_perm Loose.Diagnostic.sortKey _).symm.subset hd)
  exact Diagnostic.isDefinite_sortKey d'

/-- **The pass on texts is the pass of the checks**, with all that it yields: they fail alike, and
one result is the other as records hold it. -/
theorem run_toLoose : Loose.Pass.run input.toLoose = (run input).map PassResult.toLoose := by
  rw [Loose.Pass.run, run]
  change (do
    let documented ← (do
      let values ← documentedValues input.config input.source input.lineOffset input.documentation
      return values.map DocumentedValue.toLoose)
    let declared ← (do return (← input.declared.toValues).map DeclaredValue.toLoose)
    Loose.Pass.align input.toLoose documented declared) = _
  cases documentedValues input.config input.source input.lineOffset input.documentation with
  | error e => rfl
  | ok documented =>
    cases input.declared.toValues with
    | error e => rfl
    | ok declared => exact align_toLoose input documented declared

/-- **The passes over several symbols** are those of the checks, and so is what the engine gets. -/
theorem runAll_toLoose (inputs : List PassInput) (engine : Engine) :
    Loose.Pass.runAll (inputs.map PassInput.toLoose) engine.toLoose =
      (runAll inputs engine).map fun done =>
        (done.1.map PassResult.toLoose, done.2.toLoose) := by
  have hruns : (inputs.map PassInput.toLoose).mapM Loose.Pass.run =
      (inputs.mapM run).map (List.map PassResult.toLoose) := by
    induction inputs with
    | nil => rfl
    | cons input inputs ih =>
      rw [List.map_cons, List.mapM_cons, List.mapM_cons, ih, run_toLoose]
      cases run input with
      | error e => rfl
      | ok r => cases inputs.mapM run <;> rfl
  rw [Loose.Pass.runAll, hruns, runAll]
  cases inputs.mapM run with
  | error e => rfl
  | ok results =>
    have hflat : (results.map PassResult.toLoose).flatMap (·.diagnostics) =
        (results.flatMap (·.diagnostics)).map Diagnostic.toLoose := by
      rw [List.flatMap_map, List.map_flatMap]
      rfl
    refine congrArg (fun ds => Except.ok (_, Loose.Engine.mk ds)) ?_
    rw [hflat, Engine.problems_emitAll, List.map_append]
    rfl

end Pass

/-- What an engine hands over is what it hands over to the checks. -/
theorem Engine.drain_toLoose (e : Engine) :
    e.toLoose.drain = .ok (e.drain.1.map Diagnostic.toLoose) := Diagnostic.sort_toLoose e.problems

end ValueDocs
