import Mathlib.Data.Prod.Lex
import Mathlib.Data.String.Basic
import ValueDocs.Diagnostic
import ValueDocs.Proofs.StableSort

/-!
# Proofs/DiagnosticOrder — what sorting diagnostics by place leaves open

Places are ordered linearly, field by field (`SortKey.le_iff`).  Sorting is stable, so the sorted
list keeps the order of diagnostics at one place, and this is all that it keeps of the order they
came in (`sort_eq_sort_iff`).
-/

namespace ValueDocs.Diagnostic

namespace SortKey

/-- A sort key as its fields in the order they count. -/
def fields (k : SortKey) : String ×ₗ Int ×ₗ Int ×ₗ String ×ₗ String :=
  toLex (k.source, toLex (k.line, toLex (k.column, toLex (k.kind, k.summary))))

theorem fields_injective : Function.Injective fields := by
  rintro ⟨⟩ ⟨⟩ h
  simpa [fields] using h

theorem le_iff {a b : SortKey} : a.le b = true ↔ a.fields ≤ b.fields := by
  simp only [le, fields, Prod.Lex.toLex_le_toLex]
  split
  · next h => simp [h]
  · split
    · next h => simp_all
    · split
      · next h => simp_all
      · split
        · next h => simp_all
        · simp_all

theorem fields_surjective : Function.Surjective fields := fun k =>
  ⟨⟨k.1, k.2.1, k.2.2.1, k.2.2.2.1, k.2.2.2.2⟩, rfl⟩

end SortKey

/-- The diagnostics of a list at one place, in their order. -/
def atKey (k : SortKey) (ds : List Diagnostic) : List Diagnostic := ds.filter (·.sortKey = k)

@[simp] theorem atKey_append (k : SortKey) (ds es : List Diagnostic) :
    atKey k (ds ++ es) = atKey k ds ++ atKey k es := List.filter_append ..

theorem filter_fields_eq (k : SortKey) (ds : List Diagnostic) :
    ds.filter (·.sortKey.fields = k.fields) = atKey k ds := by
  simp only [atKey, SortKey.fields_injective.eq_iff]

/-- Whether a diagnostic may stand before another one. -/
abbrev precedes (d e : Diagnostic) : Bool := d.sortKey.le e.sortKey

theorem isStableSort_sort (ds : List Diagnostic) : IsStableSort (·.sortKey.fields) ds (sort ds) :=
  .mergeSort (fun d e => SortKey.le_iff (a := d.sortKey) (b := e.sortKey)) ds

theorem pairwise_sort (ds : List Diagnostic) :
    (sort ds).Pairwise fun d e => precedes d e = true :=
  (isStableSort_sort ds).ascending.imp SortKey.le_iff.2

/-- **Sorting is stable**: diagnostics at one place keep their order. -/
theorem atKey_sort (k : SortKey) (ds : List Diagnostic) : atKey k (sort ds) = atKey k ds := by
  simpa only [filter_fields_eq] using (isStableSort_sort ds).stable k.fields

/-- **All that sorting keeps** of the order of diagnostics is their order at each place. -/
theorem sort_eq_sort_iff {ds es : List Diagnostic} :
    sort ds = sort es ↔ ∀ k, atKey k ds = atKey k es := by
  constructor
  · intro h k
    rw [← atKey_sort, h, atKey_sort]
  · intro h
    refine eq_of_filter_key_eq (isStableSort_sort ds).ascending (isStableSort_sort es).ascending
      (SortKey.fields_surjective.forall.2 fun k => ?_)
    rw [filter_fields_eq, filter_fields_eq, atKey_sort, atKey_sort, h]

end ValueDocs.Diagnostic
