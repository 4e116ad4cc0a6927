import ValueDocs.Loose.Values
import ValueDocs.Reconciliation

/-!
# Loose/Reconciliation — authored values aligned with declared ones, as records hold them

Names are compared by a key: the name itself, which may be anything that values can be kept by, or
the case folding of a text.  A documented value whose key is declared must have a variant that
content can be kept by, and the places of declared values must have an order.
-/

namespace ValueDocs
namespace Loose

/-- Documented and declared values, aligned. -/
structure Reconciliation where
  /-- One value per declared one, in the order of declaration. -/
  values : List ReconciledValue := []
  /-- The documented values that belong to a declared one. -/
  matched : List DocumentedValue := []
  /-- The documented values that belong to none. -/
  extra : List DocumentedValue := []
  /-- The declared values nobody documented. -/
  implicit : List DeclaredValue := []
  deriving DecidableEq, Inhabited

namespace Reconciliation

/-- The key by which a name is compared. -/
def keyOf (caseSensitive : Bool) (name : Json) : Outcome Json :=
  if caseSensitive then name.keptBy
  else
    match name with
    | .str s => .ok (.str (String.ofList (nameKey false s)))
    | _ => .error .noMember

/-- The declared value with a key. -/
def ownerOf? (declared : List (Json × DeclaredValue)) (key : Json) : Option DeclaredValue :=
  (declared.find? fun d => d.1.equal key).map (·.2)

/-- A documented value with the declared one it belongs to, if there is one. -/
def assign (caseSensitive : Bool) (declared : List (Json × DeclaredValue)) (v : DocumentedValue) :
    Outcome (DocumentedValue × Option DeclaredValue) := do
  match ownerOf? declared (← keyOf caseSensitive v.name) with
  | some d => do
    let _ ← v.variant.keptBy
    return (v, some d)
  | none => return (v, none)

/-- The documented values that belong to the declared name. -/
def documenting (assigned : List (DocumentedValue × Option DeclaredValue)) (name : Json) :
    List DocumentedValue :=
  (assigned.filter fun a => a.2.any fun d => d.name.equal name).map (·.1)

/-- The first documented value of each variant. -/
def firstPerVariant : List DocumentedValue → List DocumentedValue
  | [] => []
  | v :: vs => v :: (firstPerVariant vs).filter fun w => !w.variant.equal v.variant

/-- A declared value with the content of the documented values that belong to it. -/
def reconcileValue (declared : DeclaredValue) (documenting : List DocumentedValue) :
    ReconciledValue :=
  let supplying := firstPerVariant documenting
  { name := declared.name
    order := declared.order
    content := ⟨supplying.map fun v => (v.variant, v.contentBlocks)⟩
    source := (supplying.head?.map (·.source)).getD .null }

/-- Aligns documented values with declared ones. -/
def reconcile (caseSensitive : Bool) (documented : List DocumentedValue)
    (declared : List DeclaredValue) : Outcome Reconciliation := do
  let keyed ← declared.mapM fun d => do return (← keyOf caseSensitive d.name, d)
  let assigned ← documented.mapM (assign caseSensitive keyed)
  let ordered ← Json.sortedOn (·.order) declared
  return {
    values := ordered.map fun d => reconcileValue d (documenting assigned d.name)
    matched := (assigned.filter (·.2.isSome)).map (·.1)
    extra := (assigned.filter (·.2.isNone)).map (·.1)
    implicit := ordered.filter fun d => (documenting assigned d.name).isEmpty }

/-- Whether all contents can be listed in order. -/
def isListable (r : Reconciliation) : Bool := r.values.all (·.content.isListable)

/-- The data tree of a reconciliation whose contents can be listed. -/
def toJson (r : Reconciliation) : Json :=
  .obj [("entries", .arr (r.values.map ReconciledValue.toJson)),
    ("matched", .arr (r.matched.map (·.name))),
    ("extra", .arr (r.extra.map DocumentedValue.toJson)),
    ("implicit", .arr (r.implicit.map (·.name)))]

end Reconciliation
end Loose

/-- Aligned values as a record holds them. -/
def Reconciliation.toLoose (r : Reconciliation) : Loose.Reconciliation where
  values := r.values.map ReconciledValue.toLoose
  matched := r.matched.map DocumentedValue.toLoose
  extra := r.extra.map DocumentedValue.toLoose
  implicit := r.implicit.map DeclaredValue.toLoose

end ValueDocs
