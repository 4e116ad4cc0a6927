import ValueDocs.Json.Decode

/-!
# Source — places in an authored page

Lines and columns count from one.  A range is half open: its upper column is one past the last
character.
-/

namespace ValueDocs

/-- A line and a column of a page. -/
structure Position where
  line : Int
  column : Int
  deriving DecidableEq, Repr, Inhabited

/-- The part of a page from one position to just before another. -/
structure Range where
  lower : Position
  upper : Position
  deriving DecidableEq, Repr, Inhabited

namespace Position

/-- The data tree of a position. -/
def toJson (p : Position) : Json := .obj [("line", .int p.line), ("column", .int p.column)]

/-- The position `n` lines further down. -/
def down (n : Int) (p : Position) : Position := ⟨p.line + n, p.column⟩

end Position

namespace Range

/-- The part of one line between two columns. -/
def onLine (line start stop : Int) : Range := ⟨⟨line, start⟩, ⟨line, stop⟩⟩

/-- The data tree of a range. -/
def toJson (r : Range) : Json := .obj [("lower", r.lower.toJson), ("upper", r.upper.toJson)]

/-- The data tree of a range that may be absent. -/
def toJson? : Option Range → Json
  | some r => r.toJson
  | none => .null

/-- The range `n` lines further down. -/
def down (n : Int) (r : Range) : Range := ⟨r.lower.down n, r.upper.down n⟩

end Range
end ValueDocs
