/-!
# Yaml/Cursor — a place in the text of a file

A place knows what is left of the text, and the line and the column of the next character.  Going
on past a break starts a new line, and a byte order mark takes no column.
-/

namespace ValueDocs.Yaml

/-! ## Characters -/

/-- Whether a character ends a line. -/
def isBreak (c : Char) : Bool :=
  c == '\n' || c == '\r' || c == '\u0085' || c == '\u2028' || c == '\u2029'

/-- Whether a character is a space or a tab. -/
def isSpaceOrTab (c : Char) : Bool := c == ' ' || c == '\t'

/-- Whether a character parts words. -/
def isGapChar (c : Char) : Bool := isSpaceOrTab c || isBreak c

/-- Whether the next character is a space or ends a line, or none is left. -/
def isWordEnd (next : Option Char) : Bool := next.all fun c => c == ' ' || isBreak c

/-- Whether the next character parts words, or none is left. -/
def isGap (next : Option Char) : Bool := next.all isGapChar

/-- Whether a character may stand in a name: a letter or a digit of ASCII, a dash or an
underscore. -/
def isNameChar (c : Char) : Bool :=
  ('0' ≤ c && c ≤ '9') || ('A' ≤ c && c ≤ 'Z') || ('a' ≤ c && c ≤ 'z') || c == '-' || c == '_'

/-! ## Places -/

/-- A place in a text. -/
structure Cursor where
  /-- What is left of the text. -/
  left : List Char
  /-- How many characters are behind. -/
  index : Nat := 0
  line : Nat := 0
  column : Nat := 0
  deriving DecidableEq, Repr, Inhabited

namespace Cursor

/-- The next character. -/
def peek (c : Cursor) : Option Char := c.left.head?

/-- The character after the next `n`. -/
def peekAt (c : Cursor) (n : Nat) : Option Char := c.left[n]?

/-- Whether a character is next. -/
def isAt (c : Cursor) (ch : Char) : Bool := c.peek == some ch

/-- The place after the next character. -/
def advance (c : Cursor) : Cursor :=
  match c.left with
  | [] => c
  | ch :: rest =>
    if isBreak ch && !(ch == '\r' && rest.head? == some '\n') then
      { left := rest, index := c.index + 1, line := c.line + 1, column := 0 }
    else
      { c with
        left := rest, index := c.index + 1
        column := if ch = '\ufeff' then c.column else c.column + 1 }

/-- The place after the next `n` characters. -/
def advanceBy (c : Cursor) : Nat → Cursor
  | 0 => c
  | n + 1 => c.advance.advanceBy n

/-- The next `n` characters, and the place after them. -/
def take (c : Cursor) (n : Nat) : List Char × Cursor := (c.left.take n, c.advanceBy n)

/-- The next characters with a property, and the place after them. -/
def takeWhile (c : Cursor) (p : Char → Bool) : List Char × Cursor :=
  let taken := c.left.takeWhile p
  (taken, c.advanceBy taken.length)

/-- The place after characters with a property. -/
def skipWhile (c : Cursor) (p : Char → Bool) : Cursor := (c.takeWhile p).2

/-- The place after spaces. -/
def skipSpaces (c : Cursor) : Cursor := c.skipWhile (· == ' ')

/-- The place after a comment, if one is next. -/
def skipComment (c : Cursor) : Cursor := if c.isAt '#' then c.skipWhile (!isBreak ·) else c

/-- The break that is next, and the place after it; the breaks of most files count as line
feeds. -/
def lineBreak? (c : Cursor) : Option (Char × Cursor) :=
  match c.left with
  | '\r' :: '\n' :: _ => some ('\n', c.advanceBy 2)
  | ch :: _ =>
    if ch == '\u2028' || ch == '\u2029' then some (ch, c.advance)
    else if isBreak ch then some ('\n', c.advance)
    else none
  | [] => none

/-- Whether three equal characters and a gap are next. -/
def isAtMark (c : Cursor) (ch : Char) : Bool :=
  c.left.take 3 == [ch, ch, ch] && isGap (c.peekAt 3)

/-- Whether the mark for the start or the end of a document is next. -/
def isAtDocumentMark (c : Cursor) : Bool := c.isAtMark '-' || c.isAtMark '.'

/-- The place after the rest of a line that may hold a comment; none if it holds more. -/
def endLine? (c : Cursor) : Option Cursor :=
  let c := c.skipSpaces.skipComment
  match c.lineBreak? with
  | some (_, c) => some c
  | none => if c.left.isEmpty then some c else none

end Cursor
end ValueDocs.Yaml
