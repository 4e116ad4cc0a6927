import ValueDocs.Content
import ValueDocs.Json.Order

/-!
# Loose/Content — blocks of prose as a record holds them

A record that is read back is looked at as little as possible: the kind of a block must be one of
the closed set and its lists must be lists, but a text, a line or a column may be any tree until it
is used as one.  The checks read records in this form; a block made by scanning a page is one with
texts and whole numbers in their places (`toLoose`).
-/

namespace ValueDocs
namespace Loose

/-- A line and a column, of any sort. -/
structure Place where
  line : Json
  column : Json
  deriving DecidableEq, Inhabited

/-- The part of a page from one place to just before another. -/
structure Span where
  lower : Place
  upper : Place
  deriving DecidableEq, Inhabited

/-- A piece of resolved prose; without a destination that part is null. -/
structure Segment where
  kind : SegmentKind
  text : Json
  destination : Json := .null
  deriving DecidableEq, Inhabited

/-- A block of authored prose; without a source that part is null. -/
structure Block where
  kind : BlockKind
  text : Json
  range : Option Span := none
  columns : List Json := []
  inlines : List Segment := []
  source : Json := .null
  deriving DecidableEq, Inhabited

/-! ## Data trees -/

/-- A part under a name, left out where it is null. -/
def given (name : String) (part : Json) : Json.Fields :=
  if part = .null then [] else [(name, part)]

namespace Place

/-- The data tree of a place. -/
def toJson (p : Place) : Json := .obj [("line", p.line), ("column", p.column)]

/-- The place in a data tree. -/
def ofJson (j : Json) : Outcome Place := do
  let line ← j.field "line"
  let column ← j.field "column"
  return ⟨line, column⟩

end Place

namespace Span

/-- The data tree of a span. -/
def toJson (s : Span) : Json := .obj [("lower", s.lower.toJson), ("upper", s.upper.toJson)]

/-- The span in a data tree, where anything empty is no span. -/
def ofJson? (j : Json) : Outcome (Option Span) :=
  if j.truthy then do
    let lower ← Place.ofJson (← j.field "lower")
    let upper ← Place.ofJson (← j.field "upper")
    return some ⟨lower, upper⟩
  else .ok none

/-- The data tree of a span that may be absent. -/
def toJson? : Option Span → Json
  | some s => s.toJson
  | none => .null

/-- The span under a name, which may be left out. -/
def get? (j : Json) (name : String) : Outcome (Option Span) := do ofJson? (← j.get name .null)

end Span

namespace Segment

/-- The data tree of a segment. -/
def toJson (s : Segment) : Json :=
  .obj ([("kind", .str s.kind.name), ("text", s.text)] ++ given "destination" s.destination)

/-- The segment in a data tree. -/
def ofJson (j : Json) : Outcome Segment := do
  let kind ← SegmentKind.ofJson (← j.field "kind")
  let text ← j.field "text"
  let destination ← j.get "destination" .null
  return ⟨kind, text, destination⟩

end Segment

/-- The items under a name, none if it is left out. -/
def itemsOf (decode : Json → Outcome α) (j : Json) (name : String) : Outcome (List α) := do
  (← j.get name (.arr [])).mapElements decode

namespace Block

/-- The data tree of a block; segments and source are left out when there are none. -/
def toJson (b : Block) : Json :=
  .obj ([("kind", .str b.kind.name), ("text", b.text), ("range", Span.toJson? b.range),
      ("columns", .arr b.columns)] ++
    (if b.inlines.isEmpty then [] else [("inlines", .arr (b.inlines.map Segment.toJson))]) ++
    given "source" b.source)

/-- The block in a data tree. -/
def ofJson (j : Json) : Outcome Block := do
  let kind ← BlockKind.ofJson (← j.field "kind")
  let text ← j.field "text"
  let range ← Span.get? j "range"
  let columns ← itemsOf pure j "columns"
  let inlines ← itemsOf Segment.ofJson j "inlines"
  let source ← j.get "source" .null
  return ⟨kind, text, range, columns, inlines, source⟩

/-- The place on the page of the character at an offset of the text, if the block has a place. -/
def positionOf? (b : Block) (offset : Int) : Outcome (Option Place) := do
  match b.range, b.text with
  | none, _ => return none
  | some range, .str text =>
    let head := Block.before offset text.toList
    let line := head.count '\n'
    let start : Int := head.length - (head.reverse.takeWhile (· ≠ '\n')).length
    let base := (b.columns[line]?).getD (.int 1)
    let line ← range.lower.line.plus line
    return some ⟨line, ← (← base.plus offset).plus (-start)⟩
  | some _, .arr _ => throw .wrongType
  | some _, _ => throw .noMember

end Block
end Loose

/-! ## What is scanned -/

/-- A position as a record holds it. -/
def Position.toLoose (p : Position) : Loose.Place := ⟨.int p.line, .int p.column⟩

/-- A range as a record holds it. -/
def Range.toLoose (r : Range) : Loose.Span := ⟨r.lower.toLoose, r.upper.toLoose⟩

/-- A segment as a record holds it. -/
def Segment.toLoose (s : Segment) : Loose.Segment :=
  ⟨s.kind, .str s.text, .ofText? s.destination⟩

/-- A block as a record holds it. -/
def Block.toLoose (b : Block) : Loose.Block :=
  ⟨b.kind, .str b.text, b.range.map Range.toLoose, b.columns.map .int,
    b.inlines.map Segment.toLoose, .ofText? b.source⟩

end ValueDocs
