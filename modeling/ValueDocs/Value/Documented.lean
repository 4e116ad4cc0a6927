import ValueDocs.Content

/-!
# Value/Documented — possible values as an author writes them

A documented value has a name, a short description that may be empty, and nested prose.  Its ranges
cover its own lines only, never the prose below them.
-/

namespace ValueDocs

/-- A possible value as written by an author. -/
structure DocumentedValue where
  name : String
  shortDescription : String := ""
  prose : List Block := []
  /-- The value's own lines. -/
  range : Option Range := none
  /-- The name alone. -/
  nameRange : Option Range := none
  descriptionRange : Option Range := none
  descriptionColumns : List Int := []
  source : Option String := none
  variant : Option String := none
  deriving DecidableEq, Repr, Inhabited

namespace DocumentedValue

/-- The short description as a block, if there is one. -/
def descriptionBlock? (v : DocumentedValue) : Option Block :=
  if v.shortDescription = "" then none
  else some ⟨.description, v.shortDescription, v.descriptionRange, v.descriptionColumns, [],
    v.source⟩

/-- The short description, if there is one, and the prose, each block with its source. -/
def contentBlocks (v : DocumentedValue) : List Block :=
  v.descriptionBlock?.toList ++ v.prose.map fun b => { b with source := b.source <|> v.source }

/-- The data tree of a documented value. -/
def toJson (v : DocumentedValue) : Json :=
  .obj [("name", .str v.name), ("short_description", .str v.shortDescription),
    ("prose", .arr (v.prose.map Block.toJson)), ("range", Range.toJson? v.range),
    ("name_range", Range.toJson? v.nameRange),
    ("description_range", Range.toJson? v.descriptionRange),
    ("description_columns", .ofInts v.descriptionColumns), ("source", .ofText? v.source),
    ("variant", .ofText? v.variant)]

/-- The documented value `n` lines further down. -/
def down (n : Int) (v : DocumentedValue) : DocumentedValue :=
  { v with
    prose := v.prose.map fun b => { b with range := b.range.map (·.down n) }
    range := v.range.map (·.down n)
    nameRange := v.nameRange.map (·.down n)
    descriptionRange := v.descriptionRange.map (·.down n) }

end DocumentedValue
end ValueDocs
