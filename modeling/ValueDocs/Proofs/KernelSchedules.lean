import Mathlib.Order.WellFounded
import Mathlib.Data.Fintype.EquivFin
import Mathlib.Data.String.Basic
import ValueDocs.Proofs.KernelClosure

/-!
# Proofs/KernelSchedules — the order that requirements leave

A schedule of what some names need puts at each place the least name that is ready there, which is
one that is not put yet though all it requires is (`IsSchedule`).  There is one schedule after which
nothing is ready (`IsSchedule.eq_of_isFinal`).  It leaves out the names on a circle of requirements
and those that reach a circle, and puts all others (`IsSchedule.notMem_iff`): a name on no way to a
circle becomes ready, by induction along the requirements, which are well founded off the circles
(`wellFounded_straight`).
-/

open Relation

namespace ValueDocs.Registry

section Orders

variable (r : Registry) (names : List String)

/-- A name that is needed can come next: it is not done, and all it requires is. -/
def IsReady (done : List String) (n : String) : Prop :=
  r.IsNeeded names n ∧ n ∉ done ∧ ∀ d, r.Requires n d → d ∈ done

/-- The least of the names that are ready. -/
def IsNext (done : List String) (n : String) : Prop :=
  r.IsReady names done n ∧ ∀ m, r.IsReady names done m → n ≤ m

/-- At each place stands the name that is next after those before it. -/
def IsSchedule (order : List String) : Prop :=
  ∀ done n rest, order = done ++ n :: rest → r.IsNext names done n

/-- No name is ready after these. -/
def IsFinal (order : List String) : Prop := ∀ n, ¬ r.IsReady names order n

/-- The canonical order of what some names need: each once, at its place the least of those that
require nothing beyond what stands before. -/
structure IsOrder (order : List String) : Prop where
  nodup : order.Nodup
  mem_iff : ∀ n, n ∈ order ↔ r.IsNeeded names n
  schedule : r.IsSchedule names order

/-- A name that is needed lies on a circle of requirements. -/
def HasCircle : Prop := ∃ n, r.IsNeeded names n ∧ TransGen r.Requires n n

/-- A name lies on a circle of requirements, or requires one that does, directly or not. -/
def IsCircular (n : String) : Prop :=
  ∃ c, ReflTransGen r.Requires n c ∧ TransGen r.Requires c c

end Orders

variable {r : Registry} {names order order' done : List String} {n m d : String}

theorem IsCircular.of_requires (h : r.IsCircular d) (hd : r.Requires n d) : r.IsCircular n := by
  obtain ⟨c, hpath, hcircle⟩ := h
  exact ⟨c, .head hd hpath, hcircle⟩

theorem hasCircle_iff : r.HasCircle names ↔ ∃ n, r.IsNeeded names n ∧ r.IsCircular n := by
  constructor
  · rintro ⟨n, hn, hcircle⟩
    exact ⟨n, hn, n, .refl, hcircle⟩
  · rintro ⟨n, ⟨m, hm, hpath⟩, c, hpath', hcircle⟩
    exact ⟨c, ⟨m, hm, hpath.trans hpath'⟩, hcircle⟩

variable (r names) in
/-- The names that are needed and not circular. -/
def Straight : Set String := {n | r.IsNeeded names n ∧ ¬ r.IsCircular n}

/-- **Off the circles the requirements are well founded**: nothing requires itself there, and the
names are finitely many. -/
theorem wellFounded_straight :
    WellFounded fun a b : r.Straight names => TransGen r.Requires b a := by
  have : Finite (r.Straight names) := (finite_isNeeded.subset fun _ h => h.1).to_subtype
  have : IsTrans (r.Straight names) fun a b => TransGen r.Requires b a :=
    ⟨fun _ _ _ hab hbc => hbc.trans hab⟩
  have : Std.Irrefl fun a b : r.Straight names => TransGen r.Requires b a :=
    ⟨fun a h => a.2.2 ⟨a, .refl, h⟩⟩
  exact Finite.wellFounded_of_trans_of_irrefl _

theorem IsOrder.isFinal (h : r.IsOrder names order) : r.IsFinal names order :=
  fun n hn => hn.2.1 ((h.mem_iff n).2 hn.1)

theorem isSchedule_nil : r.IsSchedule names [] := by
  intro done n rest h
  simp at h

namespace IsSchedule

/-- **A schedule goes on** with the name that is next. -/
theorem append (h : r.IsSchedule names done) (hn : r.IsNext names done n) :
    r.IsSchedule names (done ++ [n]) := by
  intro before m rest heq
  rcases List.eq_nil_or_concat rest with rfl | ⟨rest, last, rfl⟩
  · obtain ⟨rfl, hm⟩ := List.append_inj' heq rfl
    obtain rfl : n = m := List.singleton_inj.1 hm
    exact hn
  · rw [List.concat_eq_append, ← List.cons_append, ← List.append_assoc] at heq
    exact h before m rest (List.append_inj' heq rfl).1

theorem isReady (h : r.IsSchedule names order) {rest : List String}
    (heq : order = done ++ n :: rest) : r.IsReady names done n := (h _ _ _ heq).1

theorem isNeeded (h : r.IsSchedule names order) (hn : n ∈ order) : r.IsNeeded names n := by
  obtain ⟨done, rest, rfl⟩ := List.append_of_mem hn
  exact (h.isReady rfl).1

theorem requires_mem (h : r.IsSchedule names order) (hn : n ∈ order) (hd : r.Requires n d) :
    d ∈ order := by
  obtain ⟨done, rest, rfl⟩ := List.append_of_mem hn
  exact List.mem_append_left _ ((h.isReady rfl).2.2 d hd)

/-- **What is ready once a name is done** was ready before, or waited for this name alone. -/
theorem isReady_append_iff (h : r.IsSchedule names done) (hn : r.IsReady names done n) :
    r.IsReady names (done ++ [n]) m ↔ (r.IsReady names done m ∧ m ≠ n) ∨
      (r.IsNeeded names m ∧ r.Requires m n ∧ ∀ d, r.Requires m d → d ∈ done ++ [n]) := by
  constructor
  · rintro ⟨hneeded, hmem, hall⟩
    simp only [List.mem_append, List.mem_singleton, not_or] at hmem
    by_cases hrequires : r.Requires m n
    · exact .inr ⟨hneeded, hrequires, hall⟩
    · refine .inl ⟨⟨hneeded, hmem.1, fun d hd => ?_⟩, hmem.2⟩
      have hne : d ≠ n := fun heq => hrequires (heq ▸ hd)
      simpa [hne] using hall d hd
  · rintro (⟨⟨hneeded, hmem, hall⟩, hne⟩ | ⟨hneeded, hrequires, hall⟩)
    · exact ⟨hneeded, by simp [hmem, hne], fun d hd => List.mem_append_left _ (hall d hd)⟩
    · have hmem : m ∉ done := fun hm => hn.2.1 (h.requires_mem hm hrequires)
      have hne : m ≠ n := fun heq => hn.2.1 (hn.2.2 n (heq ▸ hrequires))
      exact ⟨hneeded, by simp [hmem, hne], hall⟩

theorem nodup (h : r.IsSchedule names order) : order.Nodup := by
  induction order using List.reverseRecOn with
  | nil => exact List.nodup_nil
  | append_singleton order n ih =>
    have hbefore : r.IsSchedule names order := fun done m rest heq =>
      h done m (rest ++ [n]) (by simp [heq])
    exact List.concat_eq_append ▸ (ih hbefore).concat (h.isReady rfl).2.1

/-- Whatever a name requires, directly or not, stands before it. -/
theorem mem_of_transGen (h : r.IsSchedule names order) {rest : List String}
    (heq : order = done ++ n :: rest) (hpath : TransGen r.Requires n m) : m ∈ done := by
  induction hpath using TransGen.head_induction_on generalizing done rest with
  | single hlast => exact (h.isReady heq).2.2 _ hlast
  | head hfirst _ ih =>
    obtain ⟨before, between, rfl⟩ := List.append_of_mem ((h.isReady heq).2.2 _ hfirst)
    have hmem := ih (heq.trans (by rw [List.append_assoc, List.cons_append]))
    exact List.mem_append_left _ hmem

/-- **No circular name is scheduled.** -/
theorem not_isCircular (h : r.IsSchedule names order) (hn : n ∈ order) : ¬ r.IsCircular n := by
  rintro ⟨c, hpath, hcircle⟩
  have hc : c ∈ order := by
    clear hcircle
    induction hpath with
    | refl => exact hn
    | tail _ hlast ih => exact h.requires_mem ih hlast
  obtain ⟨done, rest, heq⟩ := List.append_of_mem hc
  exact (h.isReady heq).2.1 (h.mem_of_transGen heq hcircle)

/-- **A name that is not circular is scheduled**, if the schedule comes to an end: by then all that
it requires is done. -/
theorem mem_of_not_isCircular (hfinal : r.IsFinal names order)
    (hn : r.IsNeeded names n) (hcircular : ¬ r.IsCircular n) : n ∈ order := by
  suffices h : ∀ a : r.Straight names, a.1 ∈ order from h ⟨n, hn, hcircular⟩
  intro a
  induction a using wellFounded_straight.induction with
  | _ a ih =>
    by_contra hmem
    refine hfinal a ⟨a.2.1, hmem, fun d hd => ?_⟩
    exact ih ⟨d, a.2.1.tail hd, fun h => a.2.2 (h.of_requires hd)⟩ (.single hd)

theorem notMem_iff (h : r.IsSchedule names order) (hfinal : r.IsFinal names order)
    (hn : r.IsNeeded names n) : n ∉ order ↔ r.IsCircular n :=
  ⟨fun hmem => not_not.1 fun hcircular => hmem (mem_of_not_isCircular hfinal hn hcircular),
    fun hcircular hmem => h.not_isCircular hmem hcircular⟩

/-- **A schedule to the end puts all that is needed**, unless there is a circle. -/
theorem forall_mem_iff (h : r.IsSchedule names order) (hfinal : r.IsFinal names order) :
    (∀ n, r.IsNeeded names n → n ∈ order) ↔ ¬ r.HasCircle names := by
  rw [hasCircle_iff]
  push Not
  exact forall₂_congr fun n hn => (not_iff_comm.1 (h.notMem_iff hfinal hn)).symm

/-- **There is one schedule to the end.** -/
theorem eq_of_isFinal (h : r.IsSchedule names order) (hfinal : r.IsFinal names order)
    (h' : r.IsSchedule names order') (hfinal' : r.IsFinal names order') : order = order' := by
  suffices hrest : ∀ rest rest' done, order = done ++ rest → order' = done ++ rest' →
      rest = rest' from hrest order order' [] rfl rfl
  intro rest
  induction rest with
  | nil =>
    rintro (_ | ⟨n, rest'⟩) done heq heq'
    · rfl
    · refine absurd (h'.isReady heq') ?_
      rw [← List.append_nil done, ← heq]
      exact hfinal n
  | cons n rest ih =>
    rintro (_ | ⟨n', rest'⟩) done heq heq'
    · refine absurd (h.isReady heq) ?_
      rw [← List.append_nil done, ← heq']
      exact hfinal' n
    · have hn := h _ _ _ heq
      have hn' := h' _ _ _ heq'
      obtain rfl : n = n' := le_antisymm (hn.2 n' hn'.1) (hn'.2 n hn.1)
      rw [ih rest' (done ++ [n]) (by simpa using heq) (by simpa using heq')]

end IsSchedule

end ValueDocs.Registry
