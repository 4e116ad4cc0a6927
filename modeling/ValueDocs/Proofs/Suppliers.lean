import Mathlib.Data.List.Perm.Basic
import Mathlib.Data.List.Nodup
import ValueDocs.Reconciliation

/-!
# Proofs/Suppliers — which documented value supplies what

Declared names are the first occurrences of the names in the metadata (`distinct_eq_eraseDups`), and
sorting them by their number changes nothing (`mergeSort_numbered`).  The content of a declared
value comes from the first documented value of each variant: looking one up for every variant gives
the same values, whatever the order of the variants (`firstPerVariant_perm`).
-/

namespace ValueDocs

/-! ## Declared names -/

namespace Metadata

theorem unseen_eq_eraseDups (seen names : List String) :
    unseen seen names = (names.filter fun n => !seen.contains n).eraseDups := by
  induction names generalizing seen with
  | nil => rfl
  | cons n names ih =>
    by_cases h : n ∈ seen
    · simp [unseen, h, ih]
    · have hboth : (fun m => !(n :: seen).contains m) = fun m => (!m == n) && !seen.contains m := by
        funext m
        rw [List.contains_cons, Bool.not_or]
      rw [unseen, if_neg h, ih, List.filter_cons_of_pos (by simpa using h), List.eraseDups_cons,
        List.filter_filter, hboth]

/-- **The declared names are the first occurrences** of the names in the metadata. -/
theorem distinct_eq_eraseDups (names : List String) : distinct names = names.eraseDups := by
  rw [distinct, unseen_eq_eraseDups]
  simp

/-- Declared values are numbered by their places. -/
theorem numbered_eq_mapIdx (first : Int) (names : List String) :
    numbered first names = names.mapIdx fun k n => ⟨n, .whole (first + k)⟩ := by
  induction names generalizing first with
  | nil => rfl
  | cons n names ih =>
    have hshift (k : Nat) : first + 1 + (k : Int) = first + ((k + 1 : Nat) : Int) := by omega
    simp only [numbered, ih, List.mapIdx_cons, hshift]
    simp

theorem pairwise_numbered (first : Int) (names : List String) :
    (numbered first names).Pairwise fun a b => a.order.le b.order = true := by
  induction names generalizing first with
  | nil => exact .nil
  | cons n names ih =>
    refine .cons (fun d hd => ?_) (ih (first + 1))
    rw [numbered_eq_mapIdx] at hd
    obtain ⟨k, hk, rfl⟩ := List.mem_mapIdx.1 hd
    exact Rank.le_whole.2 (by omega)

/-- Declared values are in order already. -/
theorem mergeSort_numbered (first : Int) (names : List String) :
    (numbered first names).mergeSort (fun a b => a.order.le b.order) = numbered first names :=
  List.mergeSort_of_pairwise (pairwise_numbered first names)

end Metadata

/-! ## The first value of each variant -/

namespace Reconciliation

/-- The name of the owner is the first declared name with the key. -/
theorem map_name_ownerOf? (caseSensitive : Bool) (declared : List DeclaredValue) (name : String) :
    (ownerOf? caseSensitive declared name).map (·.name) = (declared.map (·.name)).find? fun n =>
      nameKey caseSensitive n == nameKey caseSensitive name := by
  rw [List.find?_map]
  rfl

/-- A value is the first of its variant when looking the variant up finds it. -/
theorem mem_firstPerVariant {v : DocumentedValue} {vs : List DocumentedValue} :
    v ∈ firstPerVariant vs ↔ vs.find? (fun w => w.variant == v.variant) = some v := by
  induction vs with
  | nil => simp [firstPerVariant]
  | cons w vs ih =>
    rw [firstPerVariant, List.mem_cons, List.mem_filter, ih]
    by_cases h : w.variant = v.variant
    · rw [List.find?_cons_of_pos (by simpa using h)]
      simp [h, eq_comm]
    · rw [List.find?_cons_of_neg (by simpa using h)]
      have hne : v ≠ w := fun hv => h (hv ▸ rfl)
      simp [hne, Ne.symm h]

theorem nodup_map_variant_firstPerVariant (vs : List DocumentedValue) :
    ((firstPerVariant vs).map (·.variant)).Nodup := by
  induction vs with
  | nil => simp [firstPerVariant]
  | cons v vs ih =>
    rw [firstPerVariant, List.map_cons, List.nodup_cons]
    refine ⟨fun h => ?_, ih.sublist (List.filter_sublist.map _)⟩
    obtain ⟨w, hw, hv⟩ := List.mem_map.1 h
    simpa [hv] using (List.mem_filter.1 hw).2

/-- **The first values are found variant by variant**, in whatever order the variants come. -/
theorem firstPerVariant_perm {tags : List Tag} {vs : List DocumentedValue} (htags : tags.Nodup)
    (hvs : ∀ v ∈ vs, v.variant ∈ tags) :
    (firstPerVariant vs).Perm (tags.filterMap fun tag => vs.find? fun v => v.variant == tag) := by
  refine (List.perm_ext_iff_of_nodup (.of_map _ (nodup_map_variant_firstPerVariant vs)) ?_).2 ?_
  · refine htags.filterMap fun s t v hs ht => ?_
    have hs := List.find?_some (Option.mem_def.1 hs)
    have ht := List.find?_some (Option.mem_def.1 ht)
    exact (beq_iff_eq.1 hs).symm.trans (beq_iff_eq.1 ht)
  · intro v
    rw [mem_firstPerVariant, List.mem_filterMap]
    constructor
    · exact fun h => ⟨v.variant, hvs v (List.mem_of_find?_eq_some h), h⟩
    · rintro ⟨tag, -, h⟩
      have htag := List.find?_some h
      rwa [beq_iff_eq.1 htag]

theorem head?_firstPerVariant (vs : List DocumentedValue) :
    (firstPerVariant vs).head? = vs.head? := by
  cases vs <;> rfl

/-- Values of distinct variants are all the first of theirs. -/
theorem firstPerVariant_eq_self {vs : List DocumentedValue} (h : (vs.map (·.variant)).Nodup) :
    firstPerVariant vs = vs := by
  induction vs with
  | nil => rfl
  | cons v vs ih =>
    rw [List.map_cons, List.nodup_cons] at h
    rw [firstPerVariant, ih h.2, List.filter_eq_self.2 fun w hw => ?_]
    exact decide_eq_true fun hvariant => h.1 (List.mem_map.2 ⟨w, hw, hvariant⟩)

/-! ## Reconciled values -/

/-- A reconciled value has the source of the first value about it. -/
theorem source_eq_head? (d : DeclaredValue) (vs : List DocumentedValue) :
    (reconcileValue d vs).source = vs.head?.bind (·.source) := by
  rw [reconcileValue, head?_firstPerVariant]

end Reconciliation
end ValueDocs
