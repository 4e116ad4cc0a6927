import ValueDocs.Directive.Line

/-!
# Directive/ValueItem — a name, a colon, a description

The text of a value is a name, perhaps in backticks, then a colon, then the description.  A name in
backticks holds anything but backticks; a bare one holds neither backticks nor colons.
-/

namespace ValueDocs.Directive

open Text

/-- A value in its parts: how far in the name stands, the name as written, how far in the
description starts, and the description with the blanks around it. -/
structure ValueItem where
  nameStart : Nat
  name : List Char
  descriptionStart : Nat
  description : List Char
  deriving DecidableEq, Repr

namespace ValueItem

/-- What follows the colon at the start of a text, which blanks may precede. -/
def afterColon? (s : List Char) : Option (List Char) :=
  match s.dropWhile isBlank with
  | ':' :: description => some description
  | _ => none

/-- The name at the start of a text, between how far in it stands and what follows it. -/
def name? (content : List Char) : Option (Nat × List Char × List Char) :=
  match content with
  | '`' :: quoted =>
    let name := quoted.takeWhile (· != '`')
    match quoted.dropWhile (· != '`') with
    | [] => none
    | _ :: rest => if name.isEmpty then none else some (1, name, rest)
  | _ =>
    let name := trimEnd (content.takeWhile fun c => c != ':' && c != '`')
    if name.isEmpty then none else some (0, name, content.drop name.length)

/-- The value a text states. -/
def ofContent? (content : List Char) : Option ValueItem := do
  let (start, name, rest) ← name? content
  let description ← afterColon? rest
  return ⟨start, name, content.length - description.length, description⟩

end ValueItem
end ValueDocs.Directive
