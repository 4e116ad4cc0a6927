import ValueDocs.Yaml.Cursor
import ValueDocs.Yaml.Scalar

/-!
# Yaml/Quoting — how a text is set apart from what is around it

A text is written bare where it reads back as itself, else in single quotes, and in double quotes if
it has a character that needs an escape or blanks around a break.
-/

namespace ValueDocs.Yaml

/-- How a text is set apart from what is around it. -/
inductive Quoting where
  | bare
  | single
  | double
  deriving DecidableEq, Repr

/-- Whether a character is written as it is. -/
def isPlainChar (c : Char) : Bool := 0x20 ≤ c.toNat && c.toNat ≤ 0x7e

/-- Whether the next character is blank, or none is left. -/
def blankNext (s : List Char) : Bool := s.head?.all fun c => c == ' ' || c == '\n'

/-- Whether a mark of the notation stands within a text; `blankBefore` tells whether the character
before was blank. -/
def hasMark (blankBefore : Bool) : List Char → Bool
  | [] => false
  | c :: s =>
    (c == ':' && blankNext s) || (c == '#' && blankBefore) ||
      hasMark (c == ' ' || c == '\n') s

/-- Whether a text starts as the notation does. -/
def startsWithMark : List Char → Bool
  | [] => false
  | c :: s =>
    "#,[]\x7b\x7d&*!|>'\"%@".toList.contains c || c == '\x60' ||
      ((c == '?' || c == ':' || c == '-') && blankNext s) ||
      ["---".toList, "...".toList].any fun mark => mark.isPrefixOf (c :: s)

/-- Whether a text has a blank at one of its ends. -/
def hasBlankEnd (s : List Char) : Bool :=
  [s.head?, s.getLast?].any fun c => c == some ' ' || c == some '\n'

/-- Whether two characters follow each other in a text. -/
def hasPair (a b : Char) (s : List Char) : Bool := (s.zip (s.drop 1)).contains (a, b)

/-- Whether a text can be written in single quotes. -/
def isQuotable (s : List Char) : Bool :=
  s.all (fun c => isPlainChar c || c == '\n') && !hasPair ' ' '\n' s && !hasPair '\n' ' ' s

/-- Whether a text can be written bare. -/
def isBare (s : List Char) : Bool :=
  kindOf s == .text && s.all isPlainChar && !hasBlankEnd s && !startsWithMark s &&
    !hasMark false (s.drop 1)

/-- How a text is written. -/
def quoting (s : List Char) : Quoting :=
  if isBare s then .bare else if isQuotable s then .single else .double

/-- The number of characters a key on one line may have. -/
def keyWidth : Nat := 122

/-- Whether a text can be a key on one line. -/
def isLineKey (s : List Char) : Bool := !s.isEmpty && s.length ≤ keyWidth && s.all (fun c =>
  c == '\r' || !isBreak c)

/-! ## Escapes -/

/-- The letters of escapes that have one. -/
def escapeLetter? : Char → Option Char
  | '\x00' => some '0'
  | '\x07' => some 'a'
  | '\x08' => some 'b'
  | '\t' => some 't'
  | '\n' => some 'n'
  | '\x0b' => some 'v'
  | '\x0c' => some 'f'
  | '\r' => some 'r'
  | '\x1b' => some 'e'
  | '"' => some '"'
  | '\\' => some '\\'
  | '\u0085' => some 'N'
  | '\u00a0' => some '_'
  | '\u2028' => some 'L'
  | '\u2029' => some 'P'
  | _ => none

/-- A number in upper-case hexadecimal digits, padded to a width. -/
def hexDigits (width n : Nat) : List Char :=
  let digits := (Nat.toDigits 16 n).map Char.toUpper
  List.replicate (width - digits.length) '0' ++ digits

/-- The escape for a character between double quotes, if it needs one. -/
def escapeOf? (c : Char) : Option (List Char) :=
  match escapeLetter? c with
  | some e => some ['\\', e]
  | none =>
    if isPlainChar c then none
    else if c.toNat ≤ 0xff then some ('\\' :: 'x' :: hexDigits 2 c.toNat)
    else if c.toNat ≤ 0xffff then some ('\\' :: 'u' :: hexDigits 4 c.toNat)
    else some ('\\' :: 'U' :: hexDigits 8 c.toNat)

end ValueDocs.Yaml
