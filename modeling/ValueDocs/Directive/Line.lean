import ValueDocs.Text.Digit

/-!
# Directive/Line — what one line of a page is

A line is a list item when a marker, a bullet or a numeral with a point or parenthesis, stands
first and a blank follows it; a fence when three backticks or tildes or more stand first.  The
indentation that nests one line below another counts spaces and tabs alone, while any blanks may
stand before a marker.
-/

namespace ValueDocs.Directive

open Text

/-- A line of a page, without its break. -/
abbrev Line := List Char

/-- Whether a character indents a line. -/
def isIndent (c : Char) : Bool := c == ' ' || c == '\t'

/-- The number of spaces and tabs a line starts with. -/
def indent (line : Line) : Nat := (line.takeWhile isIndent).length

/-- Whether a line says something. -/
def isFilled (line : Line) : Bool := !isBlankLine line

/-- The column just after the last character of a line that is not blank. -/
def endColumn (line : Line) : Int := (trimEnd line).length + 1

theorem indent_le_length (line : Line) : indent line ≤ line.length :=
  (List.takeWhile_sublist isIndent).length_le

/-! ## List items -/

/-- A list item in four parts that make up its line. -/
structure ListItem where
  lead : List Char
  marker : List Char
  gap : List Char
  content : List Char
  deriving DecidableEq, Repr

namespace ListItem

/-- Whether a character is a bullet. -/
def isBullet (c : Char) : Bool := c == '*' || c == '-' || c == '+'

/-- Splits a marker off the start of a text. -/
def marker? : List Char → Option (List Char × List Char)
  | [] => none
  | c :: rest =>
    if isBullet c then some ([c], rest)
    else
      match (c :: rest).span isDigit with
      | ([], _) => none
      | (digits, stop :: rest) =>
        if stop = '.' ∨ stop = ')' then some (digits ++ [stop], rest) else none
      | (_, []) => none

/-- The list item a line holds. -/
def ofLine? (line : Line) : Option ListItem := do
  let (marker, rest) ← marker? (line.dropWhile isBlank)
  let gap := rest.takeWhile isBlank
  if gap.isEmpty then none
  else return ⟨line.takeWhile isBlank, marker, gap, rest.dropWhile isBlank⟩

/-- The width of what stands before the content. -/
def contentColumn (item : ListItem) : Nat :=
  item.lead.length + item.marker.length + item.gap.length

/-- The line of a list item. -/
def toLine (item : ListItem) : Line := item.lead ++ item.marker ++ item.gap ++ item.content

end ListItem

/-- Whether a line is a list item. -/
def isItem (line : Line) : Bool := (ListItem.ofLine? line).isSome

/-! ## Fences -/

/-- The run of backticks or tildes that makes a line a fence. -/
def fence? (line : Line) : Option (List Char) :=
  let rest := line.dropWhile isBlank
  let run := match rest with
    | '`' :: _ => rest.takeWhile (· == '`')
    | '~' :: _ => rest.takeWhile (· == '~')
    | _ => []
  if 3 ≤ run.length then some run else none

/-- Whether a line is a fence. -/
def isFence (line : Line) : Bool := (fence? line).isSome

/-- Whether a line closes the fence that a run opened. -/
def closes (run : List Char) (line : Line) : Bool := run.isPrefixOf (trim line)

end ValueDocs.Directive
