import ValueDocs.Directive.Region
import ValueDocs.Content

/-!
# Directive/Prose — the blocks of a nested region

A region below a value is split into blocks: a fence with all up to its closing line, a list up to
a blank line or a fence, a paragraph up to a blank line, a fence or a list item.  A paragraph loses
the indentation of each line; the other blocks keep what exceeds the indentation of their first
line.
-/

namespace ValueDocs.Directive

open Text

/-- Splits a list after the first element that satisfies `p`. -/
def splitAfter (p : α → Bool) : List α → List α × List α
  | [] => ([], [])
  | x :: xs =>
    if p x then ([x], xs)
    else
      let (taken, left) := splitAfter p xs
      (x :: taken, left)

theorem splitAfter_append (p : α → Bool) (xs : List α) :
    (splitAfter p xs).1 ++ (splitAfter p xs).2 = xs := by
  induction xs with
  | nil => rfl
  | cons x xs ih =>
    by_cases h : p x
    · simp [splitAfter, h]
    · simp [splitAfter, h, ih]

/-- The kind of the block that a line starts. -/
def blockKind (first : Line) : BlockKind :=
  if isFence first then .code else if isItem first then .list else .paragraph

/-- Whether a line ends the block before it. -/
def endsBlock (kind : BlockKind) (line : Line) : Bool :=
  !isFilled line || isFence line || (kind == .paragraph && isItem line)

/-- The lines of the block that a line starts, after that line, and the lines after the block. -/
def blockRest (first : Line) (below : List Line) : List Line × List Line :=
  match fence? first with
  | some run => splitAfter (closes run) below
  | none =>
    let stays (line : Line) := !endsBlock (blockKind first) line
    (below.takeWhile stays, below.dropWhile stays)

/-- Nothing is lost between a block and what follows it. -/
theorem blockRest_append (first : Line) (below : List Line) :
    (blockRest first below).1 ++ (blockRest first below).2 = below := by
  unfold blockRest
  split
  · exact splitAfter_append _ _
  · exact List.takeWhile_append_dropWhile

theorem length_blockRest_snd_le (first : Line) (below : List Line) :
    (blockRest first below).2.length ≤ below.length := by
  have h := congrArg List.length (blockRest_append first below)
  rw [List.length_append] at h
  omega

/-- How many columns a line of a block loses. -/
def removedIndent (kind : BlockKind) (base : Nat) (line : Line) : Nat :=
  if kind = .paragraph then indent line else min (indent line) base

/-- A block from its lines, the first of which has the number `n`. -/
def blockOf (n : Int) (first : Line) (more : List Line) : Block :=
  let kind := blockKind first
  let removed := removedIndent kind (indent first)
  let ls := first :: more
  { kind
    text := String.ofList (unlines (ls.map fun l => trimEnd (l.drop (removed l))))
    range := some ⟨⟨n, removed first + 1⟩, ⟨n + more.length, endColumn (ls.getLastD first)⟩⟩
    columns := ls.map fun l => (removed l : Int) + 1 }

/-- The blocks of the lines from the number `n` on. -/
def blocks (n : Int) : List Line → List Block
  | [] => []
  | line :: below =>
    if isFilled line then
      let rest := blockRest line below
      blockOf n line rest.1 :: blocks (n + 1 + rest.1.length) rest.2
    else blocks (n + 1) below
termination_by ls => ls.length
decreasing_by
  · have := length_blockRest_snd_le line below
    simp only [List.length_cons]
    omega
  · simp only [List.length_cons]
    omega

end ValueDocs.Directive
