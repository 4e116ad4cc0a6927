import ValueDocs.Resolution

/-!
# Render — how a symbol's values appear on its page

When no value has content the page lists the names among the symbol's attributes; otherwise it has
a section with every value, and the attributes are only the other ones.
-/

namespace ValueDocs

/-- How values appear on a page. -/
inductive RenderMode where
  | compact
  | detailed
  deriving DecidableEq, Repr, Inhabited

/-- The name of a mode. -/
def RenderMode.name : RenderMode → String
  | compact => "compact_attribute_list"
  | detailed => "detailed_section"

/-- An attribute of a symbol. -/
inductive Attribute where
  | allowedValues (names : List String)
  | other (kind : String) (value : Json)
  deriving Inhabited

/-- An attribute that is carried through unchanged. -/
structure ExtraAttribute where
  kind : String
  value : Json
  deriving Inhabited

/-- The attribute of a page for one carried through. -/
def ExtraAttribute.toAttribute (a : ExtraAttribute) : Attribute := .other a.kind a.value

/-- A value as it is rendered in detail. -/
structure RenderedValue where
  name : String
  shortDescription : String
  content : List Block
  deriving DecidableEq, Repr, Inhabited

/-- A section of a page. -/
inductive Section where
  | attributes (attributes : List Attribute)
  | possibleValues (values : List RenderedValue)
  deriving Inhabited

/-- The mode and the sections of a page. -/
structure RenderPlan where
  mode : RenderMode
  sections : List Section
  deriving Inhabited

namespace RenderPlan

/-- The title of the section of values. -/
def valuesTitle : String := "Possible Values"

/-- The mode in which values are shown. -/
def chooseMode (values : List ReconciledValue) : RenderMode :=
  if values.any (·.hasContent) then .detailed else .compact

/-- A value as it is rendered in a variant. -/
def renderValue (tag : Tag) (v : ReconciledValue) : RenderedValue :=
  { name := v.name
    shortDescription := (v.description? tag).elim "" Resolution.blockText
    content := v.prose tag }

/-- The plan for a symbol's values in a variant, with its other attributes. -/
def ofValues (tag : Tag) (extra : List ExtraAttribute) (values : List ReconciledValue) :
    RenderPlan :=
  let others := extra.map ExtraAttribute.toAttribute
  match chooseMode values with
  | .compact => ⟨.compact, [.attributes (.allowedValues (values.map (·.name)) :: others)]⟩
  | .detailed =>
    ⟨.detailed, (if others.isEmpty then [] else [.attributes others]) ++
      [.possibleValues (values.map (renderValue tag))]⟩

end RenderPlan
end ValueDocs
