import ValueDocs.Value.Declared
import ValueDocs.Value.Documented
import ValueDocs.Value.Key
import ValueDocs.Value.Reconciled

/-!
# Reconciliation — authored values aligned with declared ones

A documented value belongs to the first declared value whose name has the same key; one that
belongs to none is extra.  The result has one value per declared one, in the order of declaration,
whatever the authors wrote: documentation supplies content and nothing else.  For each variant the
first documented value supplies it.
-/

namespace ValueDocs

/-- Documented and declared values, aligned. -/
structure Reconciliation where
  /-- One value per declared one, in the order of declaration. -/
  values : List ReconciledValue := []
  /-- The documented values that belong to a declared one. -/
  matched : List DocumentedValue := []
  /-- The documented values that belong to none. -/
  extra : List DocumentedValue := []
  /-- The declared values nobody documented. -/
  implicit : List DeclaredValue := []
  deriving Repr, Inhabited

namespace Reconciliation

/-- The declared value that a documented name belongs to. -/
def ownerOf? (caseSensitive : Bool) (declared : List DeclaredValue) (name : String) :
    Option DeclaredValue :=
  declared.find? fun d => nameKey caseSensitive d.name == nameKey caseSensitive name

/-- The documented values that belong to the declared name. -/
def documenting (caseSensitive : Bool) (declared : List DeclaredValue)
    (documented : List DocumentedValue) (name : String) : List DocumentedValue :=
  documented.filter fun v =>
    ((ownerOf? caseSensitive declared v.name).map (·.name)) == some name

/-- The first documented value of each variant. -/
def firstPerVariant : List DocumentedValue → List DocumentedValue
  | [] => []
  | v :: vs => v :: (firstPerVariant vs).filter fun w => w.variant ≠ v.variant

/-- A declared value with the content of the documented values that belong to it. -/
def reconcileValue (declared : DeclaredValue) (documenting : List DocumentedValue) :
    ReconciledValue :=
  let supplying := firstPerVariant documenting
  { name := declared.name
    order := declared.order
    content := ⟨supplying.map fun v => (v.variant, v.contentBlocks)⟩
    source := supplying.head?.bind (·.source) }

/-- Aligns documented values with declared ones. -/
def reconcile (caseSensitive : Bool) (documented : List DocumentedValue)
    (declared : List DeclaredValue) : Reconciliation :=
  let belongs (v : DocumentedValue) := (ownerOf? caseSensitive declared v.name).isSome
  let ordered := declared.mergeSort fun a b => a.order.le b.order
  let of (d : DeclaredValue) := documenting caseSensitive declared documented d.name
  { values := ordered.map fun d => reconcileValue d (of d)
    matched := documented.filter belongs
    extra := documented.filter fun v => !belongs v
    implicit := ordered.filter fun d => (of d).isEmpty }

/-- **Documentation neither adds nor drops a value.** -/
theorem length_values (caseSensitive : Bool) (documented : List DocumentedValue)
    (declared : List DeclaredValue) :
    (reconcile caseSensitive documented declared).values.length = declared.length := by
  simp [reconcile]

/-- Every documented value is either matched or extra. -/
theorem length_matched_add_length_extra (caseSensitive : Bool) (documented : List DocumentedValue)
    (declared : List DeclaredValue) :
    (reconcile caseSensitive documented declared).matched.length +
      (reconcile caseSensitive documented declared).extra.length = documented.length := by
  induction documented with
  | nil => rfl
  | cons v vs ih =>
    simp only [reconcile, List.filter_cons] at ih ⊢
    split <;> simp_all <;> omega

end Reconciliation
end ValueDocs
