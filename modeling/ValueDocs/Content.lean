import ValueDocs.Source

/-!
# Content — blocks of authored prose

A block keeps its text as it was written and, for each line of the text, the page column where that
line starts.  With its range this places every character of the text on the page
(`Block.positionOf?`).  Once references are resolved the block also holds its inline segments.
-/

namespace ValueDocs

/-! ## Kinds -/

/-- The kinds of blocks; a description is the short one on the line of its value. -/
inductive BlockKind where
  | description
  | paragraph
  | code
  | list
  deriving DecidableEq, Repr, Inhabited

/-- The kinds of inline segments. -/
inductive SegmentKind where
  | text
  | reference
  | codeVoice
  deriving DecidableEq, Repr, Inhabited

/-- The member of a closed set that a data tree names. -/
def ofName (set : String) (members : List α) (name : α → String) (j : Json) : Outcome α :=
  match members.find? fun m => j == .str (name m) with
  | some m => .ok m
  | none => .error (.notListed j set)

namespace BlockKind

/-- The name of a kind in a record. -/
def name : BlockKind → String
  | description => "description"
  | paragraph => "paragraph"
  | code => "code"
  | list => "list"

/-- The kind in a data tree. -/
def ofJson : Json → Outcome BlockKind :=
  ofName "BlockKind" [description, paragraph, code, list] name

end BlockKind

namespace SegmentKind

/-- The name of a kind in a record. -/
def name : SegmentKind → String
  | text => "text"
  | reference => "reference"
  | codeVoice => "code_voice"

/-- The kind in a data tree. -/
def ofJson : Json → Outcome SegmentKind :=
  ofName "InlineKind" [text, reference, codeVoice] name

end SegmentKind

/-! ## Segments and blocks -/

/-- A piece of resolved prose; a resolved reference has a destination. -/
structure Segment where
  kind : SegmentKind
  text : String
  destination : Option String := none
  deriving DecidableEq, Repr, Inhabited

/-- A block of authored prose. -/
structure Block where
  kind : BlockKind
  text : String
  range : Option Range := none
  /-- The page column of the first character of each line of the text. -/
  columns : List Int := []
  inlines : List Segment := []
  source : Option String := none
  deriving DecidableEq, Repr, Inhabited

namespace Segment

/-- The data tree of a segment. -/
def toJson (s : Segment) : Json :=
  .obj ([("kind", .str s.kind.name), ("text", .str s.text)] ++
    match s.destination with
    | some d => [("destination", .str d)]
    | none => [])

end Segment

namespace Block

/-- The data tree of a block; segments and source are left out when there are none. -/
def toJson (b : Block) : Json :=
  .obj ([("kind", .str b.kind.name), ("text", .str b.text), ("range", Range.toJson? b.range),
      ("columns", .ofInts b.columns)] ++
    (if b.inlines.isEmpty then [] else [("inlines", .arr (b.inlines.map Segment.toJson))]) ++
    match b.source with
    | some s => [("source", .str s)]
    | none => [])

/-! ## Places

An offset counts characters of the text.  A negative one counts back from the end when the text
before it is looked up, and one past the end stands at the end. -/

/-- The part of a text before an offset. -/
def before (offset : Int) (s : List Char) : List Char :=
  s.take (if offset < 0 then offset + s.length else offset).toNat

/-- The place on the page of the character at an offset of the text. -/
def positionOf? (b : Block) (offset : Int) : Option Position := do
  let range ← b.range
  let head := before offset b.text.toList
  let line := head.count '\n'
  let start : Int := head.length - (head.reverse.takeWhile (· ≠ '\n')).length
  return ⟨range.lower.line + line, (b.columns[line]?).getD 1 + offset - start⟩

end Block
end ValueDocs
