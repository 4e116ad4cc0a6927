import ValueDocs.Config.Values
import ValueDocs.Suggestion.EditDistance
import ValueDocs.Value.Declared
import ValueDocs.Value.Key

/-!
# Suggestion/Nearest — the fix proposed for an undeclared name

The declared names nearest to the authored one are the candidates.  One near enough and alone, or
singled out by the policy for ties, is proposed as a replacement; otherwise the author is shown
every known name and asked to remove the value.
-/

namespace ValueDocs

/-- A suggested fix; it is never applied on its own. -/
structure Solution where
  summary : String
  replacement : Option String := none
  replacementRange : Option Range := none
  deriving DecidableEq, Repr, Inhabited

namespace Solution

/-- The data tree of a solution; without a replacement its range is left out too. -/
def toJson (s : Solution) : Json :=
  .obj (("summary", .str s.summary) ::
    match s.replacement with
    | some r => [("replacement", .str r), ("replacement_range", Range.toJson? s.replacementRange)]
    | none => [])

end Solution

namespace Suggestion

/-- The least distance from a name to some values, and the values at that distance. -/
structure Nearest (α : Type) where
  distance : Nat
  values : List α
  deriving DecidableEq, Repr

/-- The distance between the keys of two names. -/
def keyDistance (caseSensitive : Bool) (a b : String) : Nat :=
  EditDistance.distance (nameKey caseSensitive a) (nameKey caseSensitive b)

/-- The nearest values so far, with one more at a distance. -/
def Nearest.add (distance : Nat) (d : α) : Option (Nearest α) → Nearest α
  | none => ⟨distance, [d]⟩
  | some n =>
    if distance < n.distance then ⟨distance, [d]⟩
    else if distance = n.distance then { n with values := n.values ++ [d] }
    else n

/-- The values at the least distance, if there are any values. -/
def nearestBy (distance : α → Nat) (ds : List α) : Option (Nearest α) :=
  ds.foldl (fun n d => some (.add (distance d) d n)) none

/-- The declared values nearest to a name, if any is declared. -/
def nearest? (caseSensitive : Bool) (name : String) (declared : List DeclaredValue) :
    Option (Nearest DeclaredValue) :=
  nearestBy (fun d => keyDistance caseSensitive name d.name) declared

/-- The first value of a list of those that none precedes. -/
def leastBy (precedes : α → α → Bool) : List α → Option α
  | [] => none
  | d :: ds =>
    match leastBy precedes ds with
    | none => some d
    | some e => if precedes e d then some e else some d

/-- The value a policy picks among equally near ones. -/
def pick? (tieBreak : TieBreak) : List DeclaredValue → Option DeclaredValue
  | [d] => some d
  | ds =>
    match tieBreak with
    | .none => none
    | .declarationOrder => leastBy (fun a b => a.order.before b.order) ds
    | .alphabetical => leastBy (fun a b => decide (a.name < b.name)) ds

/-- The declared name to propose instead of a name, if any. -/
def bestMatch? (config : ValuesConfig) (name : String) (declared : List DeclaredValue) :
    Option String := do
  let nearest ← nearest? config.caseSensitive name declared
  if nearest.distance > config.suggestion.maxEditDistance then none
  else (pick? config.suggestion.tieBreak nearest.values).map (·.name)

/-- The names in the order of code points. -/
def sortedNames (declared : List DeclaredValue) : List String :=
  (declared.map (·.name)).mergeSort fun a b => decide (a ≤ b)

/-- The request to remove an undeclared value, with the known names. -/
def knownNamesMessage (name : String) (known : List String) : String :=
  "Remove '" ++ name ++ "' possible value documentation or replace it with a known value.\n" ++
    "Known Values:\n\n" ++ String.join (known.map fun n => "- " ++ n ++ "\n")

/-- The request to remove an undeclared value, with every known name in order. -/
def knownValuesMessage (name : String) (declared : List DeclaredValue) : String :=
  knownNamesMessage name (sortedNames declared)

/-- The summary of a replacement. -/
def replacementSummary (name best : String) : String :=
  "Replace '" ++ name ++ "' with '" ++ best ++ "'"

/-- The one solution for an undeclared name. -/
def solution (config : ValuesConfig) (name : String) (nameRange : Option Range)
    (declared : List DeclaredValue) : Solution :=
  match bestMatch? config name declared with
  | some best =>
    { summary := replacementSummary name best
      replacement := some best
      replacementRange := nameRange }
  | none => { summary := knownValuesMessage name declared }

end Suggestion
end ValueDocs
