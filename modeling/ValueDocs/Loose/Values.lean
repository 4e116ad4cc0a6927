import ValueDocs.Loose.Content
import ValueDocs.Value.Declared
import ValueDocs.Value.Documented
import ValueDocs.Value.Reconciled

/-!
# Loose/Values — possible values as records hold them

A name, a place in a declaration and the tag of a variant may be any tree.  Content is kept by tag:
a tag that is an array or an object keeps nothing, equal tags are one tag, and variants are put in
order only where that is asked for, which fails if two tags have none.
-/

namespace ValueDocs
namespace Loose

/-- A possible value as written by an author. -/
structure DocumentedValue where
  name : Json
  shortDescription : Json := .str ""
  prose : List Block := []
  range : Option Span := none
  nameRange : Option Span := none
  descriptionRange : Option Span := none
  descriptionColumns : List Json := []
  source : Json := .null
  variant : Json := .null
  deriving DecidableEq, Inhabited

/-- A value a symbol declares, and its place in the declaration. -/
structure DeclaredValue where
  name : Json
  order : Json
  deriving DecidableEq, Inhabited

/-- Blocks by the tag of their variant, in the order the variants were given. -/
structure Variants where
  entries : List (Json × List Block) := []
  deriving DecidableEq, Inhabited

/-- A declared value with its authored content. -/
structure ReconciledValue where
  name : Json
  order : Json
  content : Variants := {}
  source : Json := .null
  deriving DecidableEq, Inhabited

namespace DocumentedValue

/-- The short description as a block, if there is one. -/
def descriptionBlock? (v : DocumentedValue) : Option Block :=
  if v.shortDescription.truthy then
    some ⟨.description, v.shortDescription, v.descriptionRange, v.descriptionColumns, [], v.source⟩
  else none

/-- The short description, if there is one, and the prose, each block with its source. -/
def contentBlocks (v : DocumentedValue) : List Block :=
  v.descriptionBlock?.toList ++
    v.prose.map fun b => if b.source = .null then { b with source := v.source } else b

/-- The data tree of a documented value. -/
def toJson (v : DocumentedValue) : Json :=
  .obj [("name", v.name), ("short_description", v.shortDescription),
    ("prose", .arr (v.prose.map Block.toJson)), ("range", Span.toJson? v.range),
    ("name_range", Span.toJson? v.nameRange),
    ("description_range", Span.toJson? v.descriptionRange),
    ("description_columns", .arr v.descriptionColumns), ("source", v.source),
    ("variant", v.variant)]

/-- The documented value in a data tree. -/
def ofJson (j : Json) : Outcome DocumentedValue := do
  let name ← j.field "name"
  let shortDescription ← j.get "short_description" (.str "")
  let prose ← itemsOf Block.ofJson j "prose"
  let range ← Span.get? j "range"
  let nameRange ← Span.get? j "name_range"
  let descriptionRange ← Span.get? j "description_range"
  let descriptionColumns ← itemsOf pure j "description_columns"
  let source ← j.get "source" .null
  let variant ← j.get "variant" .null
  return ⟨name, shortDescription, prose, range, nameRange, descriptionRange, descriptionColumns,
    source, variant⟩

end DocumentedValue

namespace DeclaredValue

/-- The data tree of a declared value. -/
def toJson (v : DeclaredValue) : Json := .obj [("name", v.name), ("declaration_order", v.order)]

/-- The declared value in a data tree. -/
def ofJson (j : Json) : Outcome DeclaredValue := do
  let name ← j.field "name"
  let order ← j.field "declaration_order"
  return ⟨name, order⟩

end DeclaredValue

namespace Variants

/-- The entries with the blocks of one more variant; a variant given again keeps its place. -/
def setEntry (tag : Json) (blocks : List Block) :
    List (Json × List Block) → List (Json × List Block)
  | [] => [(tag, blocks)]
  | (t, bs) :: rest =>
    if t.equal tag then (t, blocks) :: rest else (t, bs) :: setEntry tag blocks rest

/-- The variants of a list in which a later entry replaces an earlier one of an equal tag. -/
def ofList (entries : List (Json × List Block)) : Variants :=
  ⟨entries.foldl (fun acc (tag, blocks) => setEntry tag blocks acc) []⟩

/-- The blocks of a variant, if it was given. -/
def get? (v : Variants) (tag : Json) : Option (List Block) :=
  (v.entries.find? fun e => e.1.equal tag).map (·.2)

/-- What a variant is ordered by: the primary one comes first, and an empty tag is like a blank. -/
def sortKey (e : Json × List Block) : Json :=
  .arr [.bool (e.1 != .null), e.1.orElse (.str "")]

/-- The variants in order, the primary one first. -/
def sorted (v : Variants) : Outcome (List (Json × List Block)) := Json.sortedOn sortKey v.entries

/-- The blocks to show for a variant. -/
def get (v : Variants) (tag : Json) : Outcome (List Block) := do
  match v.get? (← tag.keptBy) with
  | some blocks => return blocks
  | none =>
    match v.get? .null with
    | some blocks => return blocks
    | none => return (((← v.sorted).find? fun e => !e.2.isEmpty).map (·.2)).getD []

/-- Whether no variant has a block. -/
def isEmpty (v : Variants) : Bool := v.entries.all fun e => e.2.isEmpty

/-- Whether the variants can be listed in order. -/
def isListable (v : Variants) : Bool := Json.areComparable (v.entries.map sortKey)

/-- The data tree of variants that can be listed. -/
def toJson (v : Variants) : Json :=
  .arr ((Json.sortOn sortKey v.entries).map fun (tag, blocks) =>
    .obj [("variant", tag), ("blocks", .arr (blocks.map Block.toJson))])

/-- The variant in a data tree. -/
def entryOfJson (j : Json) : Outcome (Json × List Block) := do
  let tag ← j.get "variant" .null
  let blocks ← itemsOf Block.ofJson j "blocks"
  return (← tag.keptBy, blocks)

/-- The variants in a data tree, where anything empty has none. -/
def ofJson (j : Json) : Outcome Variants :=
  if j.truthy then ofList <$> j.mapElements entryOfJson else .ok {}

end Variants

namespace ReconciledValue

/-- The short description in a variant, as a block. -/
def description? (v : ReconciledValue) (tag : Json) : Outcome (Option Block) := do
  return (← v.content.get tag).head?.filter fun b => b.kind == .description

/-- The prose in a variant: all but a leading short description. -/
def prose (v : ReconciledValue) (tag : Json) : Outcome (List Block) := do
  match ← v.content.get tag with
  | [] => return []
  | b :: bs => return if b.kind = .description then bs else b :: bs

/-- The text of the primary short description. -/
def shortDescription (v : ReconciledValue) : Outcome Json := do
  return ((← v.description? .null).map (·.text)).getD (.str "")

/-- Whether any variant has content. -/
def hasContent (v : ReconciledValue) : Bool := !v.content.isEmpty

/-- The data tree of a reconciled value whose variants can be listed. -/
def toJson (v : ReconciledValue) : Json :=
  .obj [("name", v.name), ("canonical_order", v.order), ("content", v.content.toJson),
    ("source", v.source)]

/-- The reconciled value in a data tree. -/
def ofJson (j : Json) : Outcome ReconciledValue := do
  let name ← j.field "name"
  let order ← j.field "canonical_order"
  let content ← Variants.ofJson (← j.get "content" (.arr []))
  let source ← j.get "source" .null
  return ⟨name, order, content, source⟩

end ReconciledValue
end Loose

/-! ## What is scanned and declared -/

/-- A documented value as a record holds it. -/
def DocumentedValue.toLoose (v : DocumentedValue) : Loose.DocumentedValue where
  name := .str v.name
  shortDescription := .str v.shortDescription
  prose := v.prose.map Block.toLoose
  range := v.range.map Range.toLoose
  nameRange := v.nameRange.map Range.toLoose
  descriptionRange := v.descriptionRange.map Range.toLoose
  descriptionColumns := v.descriptionColumns.map .int
  source := .ofText? v.source
  variant := .ofText? v.variant

/-- A declared value as a record holds it. -/
def DeclaredValue.toLoose (v : DeclaredValue) : Loose.DeclaredValue := ⟨.str v.name, v.order.toJson⟩

/-- The blocks of a variant as a record holds them. -/
def Variants.entryToLoose (e : Tag × List Block) : Json × List Loose.Block :=
  (.ofText? e.1, e.2.map Block.toLoose)

/-- Variants as a record holds them. -/
def Variants.toLoose (v : Variants) : Loose.Variants := ⟨v.entries.map entryToLoose⟩

/-- A reconciled value as a record holds it. -/
def ReconciledValue.toLoose (v : ReconciledValue) : Loose.ReconciledValue :=
  ⟨.str v.name, v.order.toJson, v.content.toLoose, .ofText? v.source⟩

end ValueDocs
