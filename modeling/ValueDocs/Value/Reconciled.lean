import ValueDocs.Value.Rank
import ValueDocs.Value.Variants

/-!
# Value/Reconciled — declared values with what authors wrote about them

Each variant of the content starts with the short description, if there is one, and goes on with
the prose.  A value nobody documented has no content.
-/

namespace ValueDocs

/-- A declared value with its authored content. -/
structure ReconciledValue where
  name : String
  order : Rank
  content : Variants := {}
  source : Option String := none
  deriving DecidableEq, Repr, Inhabited

namespace ReconciledValue

/-- The short description in a variant, as a block. -/
def description? (v : ReconciledValue) (tag : Tag) : Option Block :=
  (v.content.get tag).head?.filter fun b => b.kind == .description

/-- The prose in a variant: all but a leading short description. -/
def prose (v : ReconciledValue) (tag : Tag) : List Block :=
  match v.content.get tag with
  | [] => []
  | b :: bs => if b.kind = .description then bs else b :: bs

/-- The text of the primary short description. -/
def shortDescription (v : ReconciledValue) : String :=
  ((v.description? none).map (·.text)).getD ""

/-- Whether any variant has content. -/
def hasContent (v : ReconciledValue) : Bool := !v.content.isEmpty

/-- A leading short description and the prose are the whole content of a variant. -/
theorem description?_append_prose (v : ReconciledValue) (tag : Tag) :
    (v.description? tag).toList ++ v.prose tag = v.content.get tag := by
  unfold description? prose
  cases v.content.get tag with
  | nil => rfl
  | cons b bs => by_cases h : b.kind = .description <;> simp [h, Option.filter]

end ReconciledValue
end ValueDocs
