import ValueDocs.Json.Basic
import ValueDocs.Number.Shortest
import ValueDocs.Text.Digit

/-!
# Json/Print — the written form of a data tree

Texts are written in ASCII: a character outside the printable range becomes an escape of its
UTF-16 units.  A tree is written on one line with a blank after each comma and colon, or with one
item a line and two blanks of indentation a level.
-/

namespace ValueDocs.Json

/-- Whole numbers are written plainly from `1e-4` to below `1e16`, and what is no finite number
has a name. -/
def numberStyle : Binary64.Style := ⟨-4, 16, false, "Infinity", "NaN"⟩

/-- The four hexadecimal digits of a UTF-16 unit. -/
def unitDigits (n : Nat) : List Char := Binary64.padZeros 4 (Nat.toDigits 16 n)

/-- The escape of a character outside the printable range. -/
def escapeUnits (c : Char) : List Char :=
  let n := c.toNat
  if n < 0x10000 then '\\' :: 'u' :: unitDigits n
  else
    let m := n - 0x10000
    '\\' :: 'u' :: unitDigits (0xd800 + m / 0x400) ++ '\\' :: 'u' :: unitDigits (0xdc00 + m % 0x400)

/-- A character inside a written text. -/
def escapeChar (c : Char) : List Char :=
  match c with
  | '"' => ['\\', '"']
  | '\\' => ['\\', '\\']
  | '\n' => ['\\', 'n']
  | '\r' => ['\\', 'r']
  | '\t' => ['\\', 't']
  | '\x0c' => ['\\', 'f']
  | '\x08' => ['\\', 'b']
  | c => if 0x20 ≤ c.toNat && c.toNat ≤ 0x7e then [c] else escapeUnits c

/-- A text in quotes. -/
def quote (s : String) : List Char := '"' :: s.toList.flatMap escapeChar ++ ['"']

/-- How items are laid out: on one line, or one a line at a depth. -/
inductive Layout where
  | line
  | indented (depth : Nat)

namespace Layout

/-- The layout one level deeper. -/
def inner : Layout → Layout
  | line => line
  | indented d => indented (d + 1)

/-- The break before the first item and after the last one. -/
def margin : Layout → List Char
  | line => []
  | indented d => '\n' :: List.replicate (2 * d) ' '

/-- The break between two items. -/
def separator : Layout → List Char
  | line => [',', ' ']
  | indented d => ',' :: '\n' :: List.replicate (2 * d) ' '

end Layout

mutual

/-- The written form of a tree. -/
def print (layout : Layout) : Json → List Char
  | null => "null".toList
  | bool true => "true".toList
  | bool false => "false".toList
  | int n => (toString n).toList
  | float x => (numberStyle.write x).toList
  | str s => quote s
  | arr [] => "[]".toList
  | arr (j :: js) =>
    '[' :: layout.inner.margin ++ print layout.inner j ++ printItems layout.inner js ++
      layout.margin ++ [']']
  | obj [] => "{}".toList
  | obj ((k, j) :: js) =>
    '{' :: layout.inner.margin ++ quote k ++ ':' :: ' ' :: print layout.inner j ++
      printFields layout.inner js ++ layout.margin ++ ['}']

/-- The written forms of further items, each after a separator. -/
def printItems (layout : Layout) : List Json → List Char
  | [] => []
  | j :: js => layout.separator ++ print layout j ++ printItems layout js

/-- The written forms of further fields, each after a separator. -/
def printFields (layout : Layout) : List (String × Json) → List Char
  | [] => []
  | (k, j) :: js =>
    layout.separator ++ quote k ++ ':' :: ' ' :: print layout j ++ printFields layout js

end

mutual

/-- Whether no whole number of a tree has too many digits to be written. -/
def isWritable : Json → Bool
  | int n => (Nat.toDigits 10 n.natAbs).length ≤ Text.digitLimit
  | arr items => areWritable items
  | obj fields => areWritableFields fields
  | _ => true

/-- Whether all items can be written. -/
def areWritable : List Json → Bool
  | [] => true
  | j :: js => isWritable j && areWritable js

/-- Whether all fields can be written. -/
def areWritableFields : List (String × Json) → Bool
  | [] => true
  | (_, j) :: js => isWritable j && areWritableFields js

end

/-- The tree on one line. -/
def compact (j : Json) : String := String.ofList (j.print .line)

/-- The tree with one item a line. -/
def pretty (j : Json) : String := String.ofList (j.print (.indented 0))

end ValueDocs.Json
