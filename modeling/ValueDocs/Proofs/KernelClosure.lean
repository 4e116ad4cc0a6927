import Mathlib.Data.Finset.Card
import Mathlib.Data.Set.Finite.List
import Mathlib.Logic.Relation
import ValueDocs.Proofs.Outcome
import ValueDocs.Registry

/-!
# Proofs/KernelClosure — what a search for required kernels finds

Some names need the names that they reach along requirements, and these are finitely many
(`finite_isNeeded`).  The search keeps names that are known and a stack of those still to be looked
at: whatever is known is needed, and what a name requires is known once the name has been looked at
(`IsSearch`).  A name is put on the stack only when it becomes known, so the search has steps enough
to empty the stack.  Then all that is needed is known, unless a name is met under which no kernel is
registered (`closure_spec`).
-/

open Relation

namespace ValueDocs.Registry

open Metadata

section Needs

variable (r : Registry) (names : List String)

/-- The kernel registered under the first name requires the second. -/
def Requires (n d : String) : Prop := ∃ k, r.find? n = some k ∧ d ∈ k.requires

/-- A name is one of some names, or they require it, directly or not. -/
def IsNeeded (n : String) : Prop := ∃ m ∈ names, ReflTransGen r.Requires m n

/-- A name is needed, and no kernel is registered under it. -/
def IsMissing (n : String) : Prop := r.IsNeeded names n ∧ r.find? n = none

/-- All that the registered kernels require. -/
def allRequired : List String := r.kernels.flatMap (·.requires)

end Needs

variable {r : Registry} {names known stack : List String} {n d : String} {k : Kernel}

theorem requires_iff (h : r.find? n = some k) : r.Requires n d ↔ d ∈ k.requires := by
  simp [Requires, h]

theorem Requires.mem_allRequired (h : r.Requires n d) : d ∈ r.allRequired := by
  obtain ⟨k, hk, hd⟩ := h
  exact List.mem_flatMap.2 ⟨k, List.mem_of_find?_eq_some hk, hd⟩

theorem isNeeded_of_mem (h : n ∈ names) : r.IsNeeded names n := ⟨n, h, .refl⟩

theorem IsNeeded.tail (h : r.IsNeeded names n) (hd : r.Requires n d) : r.IsNeeded names d := by
  obtain ⟨m, hm, hpath⟩ := h
  exact ⟨m, hm, hpath.tail hd⟩

/-- **The names that are needed are finitely many**, registered or not. -/
theorem finite_isNeeded : {n | r.IsNeeded names n}.Finite := by
  refine (List.finite_toSet (names ++ r.allRequired)).subset fun n ⟨m, hm, hpath⟩ => ?_
  cases hpath with
  | refl => exact List.mem_append_left _ hm
  | tail _ hlast => exact List.mem_append_right _ hlast.mem_allRequired

/-! ## The search -/

theorem get_eq_ok (h : r.find? n = some k) : r.get n = .ok k := by
  rw [get, h]

theorem get_eq_error (h : r.find? n = none) : r.get n = .error (.unknownKernel n r.names) := by
  rw [get, h]

@[simp] theorem mem_further : d ∈ further known k ↔ d ∈ k.requires ∧ d ∉ known := by
  simp [further]

theorem nodup_further : (further known k).Nodup := (nodup_distinct _).filter _

variable (r names) in
/-- What a search for all that some names need has come to: the names on a stack are still to be
looked at. -/
structure IsSearch (known stack : List String) : Prop where
  nodup : known.Nodup
  needed : ∀ n ∈ known, r.IsNeeded names n
  asked : ∀ n ∈ names, n ∈ known
  stacked : ∀ n ∈ stack, n ∈ known
  seen : ∀ n ∈ known, n ∉ stack → (r.find? n).isSome ∧ ∀ d, r.Requires n d → d ∈ known

namespace IsSearch

theorem initial : IsSearch r names (distinct names) names.reverse where
  nodup := nodup_distinct names
  needed := fun _ hn => isNeeded_of_mem (mem_distinct.1 hn)
  asked := fun _ hn => mem_distinct.2 hn
  stacked := fun _ hn => mem_distinct.2 (List.mem_reverse.1 hn)
  seen := fun _ hn h => absurd (List.mem_reverse.2 (mem_distinct.1 hn)) h

/-- **A name of a registered kernel is looked at.** -/
theorem step (h : IsSearch r names known (n :: stack)) (hk : r.find? n = some k) :
    IsSearch r names (known ++ further known k) ((further known k).reverse ++ stack) where
  nodup := h.nodup.append nodup_further fun d hd hnew => (mem_further.1 hnew).2 hd
  needed := by
    intro d hd
    rcases List.mem_append.1 hd with hd | hd
    · exact h.needed d hd
    · exact (h.needed n (h.stacked n List.mem_cons_self)).tail
        ((requires_iff hk).2 (mem_further.1 hd).1)
  asked := fun m hm => List.mem_append_left _ (h.asked m hm)
  stacked := by
    intro d hd
    rcases List.mem_append.1 hd with hd | hd
    · exact List.mem_append_right _ (List.mem_reverse.1 hd)
    · exact List.mem_append_left _ (h.stacked d (List.mem_cons_of_mem _ hd))
  seen := by
    intro m hm hstack
    simp only [List.mem_append, List.mem_reverse, not_or] at hm hstack
    have hknown : m ∈ known := hm.resolve_right hstack.1
    by_cases hmn : m = n
    · subst hmn
      refine ⟨by simp [hk], fun d hd => ?_⟩
      have hd := (requires_iff hk).1 hd
      by_cases hmem : d ∈ known
      · exact List.mem_append_left _ hmem
      · exact List.mem_append_right _ (mem_further.2 ⟨hd, hmem⟩)
    · obtain ⟨hsome, hrequires⟩ := h.seen m hknown (by simp [hmn, hstack.2])
      exact ⟨hsome, fun d hd => List.mem_append_left _ (hrequires d hd)⟩

/-- With nothing left to look at, all that is needed is known. -/
theorem mem_iff (h : IsSearch r names known []) : n ∈ known ↔ r.IsNeeded names n := by
  refine ⟨h.needed n, ?_⟩
  rintro ⟨m, hm, hpath⟩
  induction hpath with
  | refl => exact h.asked m hm
  | tail _ hlast ih => exact (h.seen _ ih List.not_mem_nil).2 _ hlast

end IsSearch

/-! ## The steps it takes -/

variable (r known) in
/-- How many required names are not known. -/
def unknownCount : Nat := (r.allRequired.toFinset \ known.toFinset).card

/-- Names that become known are no longer to come. -/
theorem unknownCount_append (known : List String) (hk : r.find? n = some k) :
    r.unknownCount (known ++ further known k) + (further known k).length =
      r.unknownCount known := by
  have hsub : (further known k).toFinset ⊆ r.allRequired.toFinset \ known.toFinset := by
    intro d hd
    obtain ⟨hd, hknown⟩ := mem_further.1 (List.mem_toFinset.1 hd)
    simpa [hknown] using ((requires_iff hk).2 hd).mem_allRequired
  rw [unknownCount, unknownCount, List.toFinset_append, ← Finset.sup_eq_union, ← sdiff_sdiff_left,
    ← List.toFinset_card_of_nodup nodup_further]
  exact Finset.card_sdiff_add_card_eq_card hsub

/-- **A search with steps enough** comes to its end, unless it meets a name that is missing. -/
theorem expand_spec (steps : Nat) (h : IsSearch r names known stack)
    (hsteps : stack.length + r.unknownCount known ≤ steps) :
    (∃ all, r.expand steps known stack = .ok all ∧ IsSearch r names all []) ∨
      ∃ n, r.IsMissing names n ∧
        r.expand steps known stack = .error (.unknownKernel n r.names) := by
  induction steps generalizing known stack with
  | zero =>
    obtain rfl : stack = [] := List.length_eq_zero_iff.1 (by omega)
    exact .inl ⟨known, rfl, h⟩
  | succ steps ih =>
    cases stack with
    | nil => exact .inl ⟨known, rfl, h⟩
    | cons n stack =>
      cases hk : r.find? n with
      | none =>
        refine .inr ⟨n, ⟨h.needed n (h.stacked n List.mem_cons_self), hk⟩, ?_⟩
        rw [expand, get_eq_error hk]
        rfl
      | some k =>
        have hcount := unknownCount_append known hk
        rw [expand, get_eq_ok hk]
        refine ih (h.step hk) ?_
        simp only [List.length_append, List.length_reverse, List.length_cons] at hsteps ⊢
        omega

/-- **The closure of some names** lists all that they need once, unless one of these is missing. -/
theorem closure_spec (r : Registry) (names : List String) :
    (∃ all, r.closure names = .ok all ∧ all.Nodup ∧ (∀ n, n ∈ all ↔ r.IsNeeded names n) ∧
        ∀ n ∈ all, (r.find? n).isSome) ∨
      ∃ n, r.IsMissing names n ∧ r.closure names = .error (.unknownKernel n r.names) := by
  have hsteps : names.reverse.length + r.unknownCount (distinct names) ≤
      names.length + r.allRequired.length := by
    have hcard : r.unknownCount (distinct names) ≤ r.allRequired.toFinset.card :=
      Finset.card_le_card Finset.sdiff_subset
    have hlength := r.allRequired.toFinset_card_le
    simp only [List.length_reverse]
    omega
  rcases expand_spec _ IsSearch.initial hsteps with ⟨all, hall, h⟩ | hmissing
  · refine .inl ⟨all, hall, h.nodup, fun _ => h.mem_iff, fun n hn => ?_⟩
    exact (h.seen n hn List.not_mem_nil).1
  · exact .inr hmissing

theorem closure_eq_ok {all : List String} (h : r.closure names = .ok all) :
    all.Nodup ∧ (∀ n, n ∈ all ↔ r.IsNeeded names n) ∧ ∀ n ∈ all, (r.find? n).isSome := by
  rcases closure_spec r names with ⟨all', hall', hspec⟩ | ⟨n, -, herror⟩
  · obtain rfl : all = all' := Except.ok.inj (h.symm.trans hall')
    exact hspec
  · exact absurd (h.symm.trans herror) nofun

end ValueDocs.Registry
