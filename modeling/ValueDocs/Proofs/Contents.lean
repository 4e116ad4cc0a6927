import Mathlib.Data.List.Nodup
import Mathlib.Data.String.Basic
import Mathlib.Order.WithBot
import ValueDocs.Proofs.StableSort
import ValueDocs.Proofs.Table
import ValueDocs.Value.Reconciled

/-!
# Proofs/Contents — content in variants as a table

Content whose tags are distinct is a table from tags to blocks: it is the same as another when every
tag looks up the same blocks in both (`Variants.same_of_get?_eq`), in whatever order the variants
were given.  Sorted, the variants stand by their tags, the primary one first.
-/

namespace ValueDocs

/-! ## The order of tags -/

/-- A tag as it is ordered: the primary variant below every text. -/
def Tag.rank (tag : Tag) : WithBot String := tag

theorem Tag.le_iff {s t : Tag} : s.le t = true ↔ s.rank ≤ t.rank := by
  cases s with
  | none => exact iff_of_true rfl (bot_le (α := WithBot String))
  | some a =>
    cases t with
    | none => exact iff_of_false (by simp [Tag.le]) (WithBot.not_coe_le_bot a)
    | some b =>
      rw [Tag.le, decide_eq_true_iff]
      exact WithBot.coe_le_coe.symm

namespace Variants

/-- The tags of the variants that were given. -/
def tags (v : Variants) : List Tag := v.entries.map (·.1)

/-- Variants with distinct tags look up the blocks they were given. -/
theorem get?_eq_some_iff {v : Variants} (hv : v.tags.Nodup) {tag : Tag} {blocks : List Block} :
    v.get? tag = some blocks ↔ (tag, blocks) ∈ v.entries :=
  lookup_eq_some_iff_mem hv

/-- **Variants are the same in any order.** -/
theorem same_of_perm {v w : Variants} (h : v.entries.Perm w.entries) (hv : v.tags.Nodup) :
    v.same w = true := by
  have hw : w.tags.Nodup := (h.map _).nodup_iff.1 hv
  rw [same, Bool.and_eq_true, beq_iff_eq, List.all_eq_true]
  refine ⟨h.length_eq, fun e he => ?_⟩
  rw [beq_iff_eq, get?_eq_some_iff hw]
  exact h.subset he

/-- **Variants are the same that look up the same.** -/
theorem same_of_get?_eq {v w : Variants} (hv : v.tags.Nodup) (hw : w.tags.Nodup)
    (h : ∀ tag, v.get? tag = w.get? tag) : v.same w = true := by
  refine same_of_perm ((List.perm_ext_iff_of_nodup (.of_map _ hv) (.of_map _ hw)).2 ?_) hv
  rintro ⟨tag, blocks⟩
  rw [← get?_eq_some_iff hv, ← get?_eq_some_iff hw, h]

/-! ## Variants in order -/

theorem isStableSort_sorted (v : Variants) :
    IsStableSort (fun e => e.1.rank) v.entries v.sorted :=
  .mergeSort (fun e f => Tag.le_iff (s := e.1) (t := f.1)) v.entries

variable (f g : List Block → List Block) (v : Variants)

/-- Variants stay in order when their blocks are changed. -/
theorem sorted_map : (v.map f).sorted = (v.map f).entries :=
  List.mergeSort_of_pairwise
    (List.pairwise_map.2 (v.isStableSort_sorted.ascending.imp Tag.le_iff.2))

theorem map_map : (v.map f).map g = v.map (g ∘ f) := by
  rw [map, sorted_map, map, map, List.map_map]
  rfl

/-- Variants have content after a change that leaves no list of blocks empty or filled. -/
theorem isEmpty_map {f : List Block → List Block}
    (hf : ∀ blocks, (f blocks).isEmpty = blocks.isEmpty) : (v.map f).isEmpty = v.isEmpty := by
  rw [isEmpty, map, List.all_map, isEmpty, ← v.isStableSort_sorted.perm.all_eq]
  simp only [Function.comp_def, hf]

end Variants

/-! ## Values -/

/-- Two reconciled values are the same, in whatever order their variants were given. -/
structure ReconciledValue.Same (v w : ReconciledValue) : Prop where
  name : v.name = w.name
  order : v.order = w.order
  content : v.content.same w.content = true
  source : v.source = w.source

end ValueDocs
