import ValueDocs.Loose.Resolution
import ValueDocs.Render

/-!
# Loose/Render — how values of records appear on a page

A plan lists names as they are; a preview joins them, so they must be texts there.  The variant that
is asked for is looked up in every value as soon as one has content.
-/

namespace ValueDocs
namespace Loose

/-- An attribute of a symbol. -/
inductive Attribute where
  | allowedValues (names : List Json)
  | other (kind value : Json)
  deriving Inhabited

/-- An attribute that is carried through unchanged. -/
structure ExtraAttribute where
  kind : Json
  value : Json
  deriving Inhabited

/-- The attribute of a page for one carried through. -/
def ExtraAttribute.toAttribute (a : ExtraAttribute) : Attribute := .other a.kind a.value

/-- A value as it is rendered in detail. -/
structure RenderedValue where
  name : Json
  shortDescription : String
  content : List Block
  deriving DecidableEq, Inhabited

/-- A section of a page. -/
inductive Section where
  | attributes (attributes : List Attribute)
  | possibleValues (values : List RenderedValue)
  deriving Inhabited

/-- The mode and the sections of a page. -/
structure RenderPlan where
  mode : RenderMode
  sections : List Section
  deriving Inhabited

namespace RenderPlan

/-- The mode in which values are shown. -/
def chooseMode (values : List ReconciledValue) : RenderMode :=
  if values.any (·.hasContent) then .detailed else .compact

/-- A value as it is rendered in a variant. -/
def renderValue (tag : Json) (v : ReconciledValue) : Outcome RenderedValue := do
  let shortDescription ← match ← v.description? tag with
    | some b => Resolution.blockText b
    | none => pure ""
  return ⟨v.name, shortDescription, ← v.prose tag⟩

/-- The plan for a symbol's values in a variant, with its other attributes. -/
def ofValues (tag : Json) (extra : List ExtraAttribute) (values : List ReconciledValue) :
    Outcome RenderPlan := do
  let others := extra.map ExtraAttribute.toAttribute
  match chooseMode values with
  | .compact => return ⟨.compact, [.attributes (.allowedValues (values.map (·.name)) :: others)]⟩
  | .detailed =>
    let rendered ← values.mapM (renderValue tag)
    return ⟨.detailed, (if others.isEmpty then [] else [.attributes others]) ++
      [.possibleValues rendered]⟩

/-- The attributes section, if there is one. -/
def attributes? (p : RenderPlan) : Option (List Attribute) :=
  p.sections.findSome? fun
    | .attributes as => some as
    | .possibleValues _ => none

/-- Whether there is a section of values. -/
def hasValuesSection (p : RenderPlan) : Bool :=
  p.sections.any fun
    | .attributes _ => false
    | .possibleValues _ => true

/-- The names listed among the attributes. -/
def allowedValues (p : RenderPlan) : List Json :=
  ((p.attributes?.getD []).findSome? fun
    | .allowedValues names => some names
    | .other .. => none).getD []

/-! ## Data trees -/

/-- The data tree of an attribute. -/
def attributeJson : Attribute → Json
  | .allowedValues names => .obj [("kind", .str "allowed_values"), ("values", .arr names)]
  | .other kind value => .obj [("kind", kind), ("value", value)]

/-- The data tree of a rendered value. -/
def renderedJson (v : RenderedValue) : Json :=
  .obj [("name", v.name), ("short_description", .str v.shortDescription),
    ("content", .arr (v.content.map Block.toJson))]

/-- The data tree of a section. -/
def sectionJson : Section → Json
  | .attributes as =>
    .obj [("kind", .str "attributes"), ("attributes", .arr (as.map attributeJson))]
  | .possibleValues vs =>
    .obj [("kind", .str "possible_values"), ("title", .str ValueDocs.RenderPlan.valuesTitle),
      ("values", .arr (vs.map renderedJson))]

/-- The data tree of a plan. -/
def toJson (p : RenderPlan) : Json :=
  .obj [("mode", .str p.mode.name), ("sections", .arr (p.sections.map sectionJson))]

/-! ## Preview -/

/-- The line of an attribute in a preview. -/
def attributeLine : Attribute → Outcome String
  | .allowedValues names => do
    return "  Possible values: " ++ ", ".intercalate (← names.mapM Json.text)
  | .other kind value => .ok ("  " ++ kind.display ++ ": " ++ value.display)

/-- The lines of a rendered value in a preview. -/
def renderedLines (v : RenderedValue) : Outcome (List String) := do
  let body ← Resolution.plainText v.content
  return ("  " ++ v.name.display ++
      if v.shortDescription = "" then "" else ": " ++ v.shortDescription) ::
    (Text.lines body.toList).map fun line =>
      if line.isEmpty then "" else "      " ++ String.ofList line

/-- The lines of a section in a preview. -/
def sectionLines : Section → Outcome (List String)
  | .attributes as => do return "Attributes" :: (← as.mapM attributeLine)
  | .possibleValues vs => do
    return ValueDocs.RenderPlan.valuesTitle :: (← vs.mapM renderedLines).flatten

/-- A plain preview of a plan. -/
def preview (p : RenderPlan) : Outcome String := do
  return "\n".intercalate (("mode: " ++ p.mode.name) :: (← p.sections.mapM sectionLines).flatten)

end RenderPlan
end Loose

/-! ## Plans of texts -/

/-- An attribute carried through, as a record holds it. -/
def ExtraAttribute.toLoose (a : ExtraAttribute) : Loose.ExtraAttribute := ⟨.str a.kind, a.value⟩

/-- An attribute as a record holds it. -/
def Attribute.toLoose : Attribute → Loose.Attribute
  | .allowedValues names => .allowedValues (names.map .str)
  | .other kind value => .other (.str kind) value

/-- A rendered value as a record holds it. -/
def RenderedValue.toLoose (v : RenderedValue) : Loose.RenderedValue :=
  ⟨.str v.name, v.shortDescription, v.content.map Block.toLoose⟩

/-- A section as a record holds it. -/
def Section.toLoose : Section → Loose.Section
  | .attributes as => .attributes (as.map Attribute.toLoose)
  | .possibleValues vs => .possibleValues (vs.map RenderedValue.toLoose)

/-- A plan as a record holds it. -/
def RenderPlan.toLoose (p : RenderPlan) : Loose.RenderPlan :=
  ⟨p.mode, p.sections.map Section.toLoose⟩

end ValueDocs
