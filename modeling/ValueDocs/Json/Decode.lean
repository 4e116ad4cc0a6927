import ValueDocs.Failure

/-!
# Json/Decode — reading records out of data trees

A record's required fields are read with `field` and its optional ones with `get`.  A decoder asks
for each part in the order of the record's fields, so the first faulty part decides the failure.
-/

namespace ValueDocs.Json

/-- A required field. -/
def field (name : String) : Json → Outcome Json
  | obj fields =>
    match fields.lookup name with
    | some j => .ok j
    | none => .error (.missingKey name)
  | _ => .error .wrongType

/-- An optional field. -/
def get? (name : String) : Json → Outcome (Option Json)
  | obj fields => .ok (fields.lookup name)
  | _ => .error .noMember

/-- An optional field with the value it has when it is absent. -/
def get (j : Json) (name : String) (default : Json) : Outcome Json := do
  return (← j.get? name).getD default

/-- What a tree yields item by item: the items of an array, the characters of a text, the names
of an object's fields. -/
def elements : Json → Outcome (List Json)
  | arr items => .ok items
  | str s => .ok (s.toList.map fun c => .str c.toString)
  | obj fields => .ok (fields.map fun f => .str f.1)
  | _ => .error .wrongType

/-- A text. -/
def text : Json → Outcome String
  | str s => .ok s
  | _ => .error .wrongType

/-- The whole number that a tree equals, if it equals one; a truth value equals one or zero. -/
def wholeValue? : Json → Option Int
  | int n => some n
  | bool b => some (if b then 1 else 0)
  | float (.finite negative m e) =>
    let (n, d) := Binary64.ratio m e
    if n % d = 0 then some (Binary64.truncate negative m e) else none
  | _ => none

/-- The items of a tree, each decoded. -/
def mapElements (decode : Json → Outcome α) (j : Json) : Outcome (List α) := do
  (← j.elements).mapM decode

end ValueDocs.Json
