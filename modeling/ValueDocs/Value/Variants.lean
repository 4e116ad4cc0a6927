import ValueDocs.Content

/-!
# Value/Variants — content in several variants

Content may be written once for every variant of a page, a source language for instance.  The
primary variant has no tag.  A variant that nobody wrote falls back to the primary one, and without
that to the first tag that has content.
-/

namespace ValueDocs

/-- The tag of a variant; the primary variant has none. -/
abbrev Tag := Option String

/-- Puts the primary variant first and orders the tags by code point. -/
def Tag.le : Tag → Tag → Bool
  | none, _ => true
  | some _, none => false
  | some a, some b => decide (a ≤ b)

/-- Blocks by variant, in the order the variants were given. -/
structure Variants where
  entries : List (Tag × List Block) := []
  deriving DecidableEq, Repr, Inhabited

namespace Variants

/-- The blocks of a variant, if it was given. -/
def get? (v : Variants) (tag : Tag) : Option (List Block) := v.entries.lookup tag

/-- The variants in order, the primary one first. -/
def sorted (v : Variants) : List (Tag × List Block) :=
  v.entries.mergeSort fun a b => Tag.le a.1 b.1

/-- The blocks to show for a variant. -/
def get (v : Variants) (tag : Tag) : List Block :=
  match v.get? tag with
  | some blocks => blocks
  | none =>
    match v.get? none with
    | some blocks => blocks
    | none => ((v.sorted.find? fun e => !e.2.isEmpty).map (·.2)).getD []

/-- Whether no variant has a block. -/
def isEmpty (v : Variants) : Bool := v.entries.all fun e => e.2.isEmpty

/-- The variants with the blocks of each changed, in order. -/
def map (f : List Block → List Block) (v : Variants) : Variants :=
  ⟨v.sorted.map fun e => (e.1, f e.2)⟩

/-- Whether two contents give every variant the same blocks. -/
def same (v w : Variants) : Bool :=
  v.entries.length == w.entries.length && v.entries.all fun e => w.get? e.1 == some e.2

end Variants
end ValueDocs
