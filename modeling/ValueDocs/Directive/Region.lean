import ValueDocs.Directive.Line

/-!
# Directive/Region — the lines nested below a marker

The region of a list item runs to its last line nested deeper than the marker; blank lines belong
to it when such a line follows.  The item's own lines are the marker line and the lines right below
it that neither start an item nor a fence nor are blank.
-/

namespace ValueDocs.Directive

/-- How many of the lines below a marker lie in its region. -/
def regionLength (marker : Nat) : List Line → Nat
  | [] => 0
  | line :: below =>
    if isFilled line then
      if indent line ≤ marker then 0 else regionLength marker below + 1
    else
      match regionLength marker below with
      | 0 => 0
      | n + 1 => n + 2

/-- The region of a marker among the lines below it. -/
def region (marker : Nat) (below : List Line) : List Line := below.take (regionLength marker below)

/-- Whether a line continues the item above it. -/
def continuesItem (line : Line) : Bool := isFilled line && !isItem line && !isFence line

/-- The lines of a region that continue the item's marker line. -/
def continuation (region : List Line) : List Line := region.takeWhile continuesItem

theorem regionLength_le (marker : Nat) (below : List Line) :
    regionLength marker below ≤ below.length := by
  induction below with
  | nil => simp [regionLength]
  | cons line below ih =>
    rw [regionLength]
    split
    · split
      · exact Nat.zero_le _
      · simpa using ih
    · split
      · exact Nat.zero_le _
      · next n hn => rw [hn] at ih; simpa using ih

/-- **A region is nested.**  Each of its lines is blank or indented deeper than the marker. -/
theorem lt_indent_of_mem_region {marker : Nat} {below : List Line} :
    ∀ line ∈ region marker below, isFilled line = true → marker < indent line := by
  induction below with
  | nil => simp [region]
  | cons first below ih =>
    intro line hl hf
    unfold region at hl ih
    rw [regionLength] at hl
    split at hl
    · split at hl
      · simp at hl
      · next hm =>
        rw [List.take_succ_cons, List.mem_cons] at hl
        rcases hl with rfl | hl
        · omega
        · exact ih line hl hf
    · next hb =>
      split at hl
      · simp at hl
      · next n hn =>
        rw [List.take_succ_cons, List.mem_cons] at hl
        rcases hl with rfl | hl
        · exact absurd hf hb
        · exact ih line (hn ▸ hl) hf

end ValueDocs.Directive
