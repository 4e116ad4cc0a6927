import ValueDocs.Page
import ValueDocs.Proofs.Directive.Sightings
import ValueDocs.Proofs.Text.LineBreaks

/-!
# Proofs/PagePlaces — what stands at a place of a page

A position leads to the rest of a line of the page (`Page.from?`), a range of one line to the text
between its columns (`Page.slice?`).  The lines of the body are those of the page below the title,
so a line number of the body, counted on from the offset, is a line number of the page
(`Page.holds_body`).
-/

namespace ValueDocs

open Text Directive

namespace Page

/-- The line of a text with a number. -/
def line? (text : List Char) (n : Int) : Option Line :=
  if 1 ≤ n then (lines text)[(n - 1).toNat]? else none

/-- What a line of a text holds from a position on. -/
def from? (text : List Char) (p : Position) : Option (List Char) :=
  if 1 ≤ p.column then (line? text p.line).map (·.drop (p.column - 1).toNat) else none

/-- The character of a text at a position. -/
def char? (text : List Char) (p : Position) : Option Char := (from? text p).bind (·.head?)

/-- What a line of a text holds within a range, which lies on that line alone. -/
def slice? (text : List Char) (r : Range) : Option (List Char) :=
  let width := (r.upper.column - r.lower.column).toNat
  if r.lower.line = r.upper.line ∧ r.lower.column ≤ r.upper.column then
    ((from? text r.lower).filter fun rest => width ≤ rest.length).map (·.take width)
  else none

/-! ## Reading a line -/

theorem from?_eq_some {text : List Char} {n : Int} {line : Line} (h : line? text n = some line)
    (k : Nat) : from? text ⟨n, k + 1⟩ = some (line.drop k) := by
  have hk : (1 : Int) ≤ (k : Int) + 1 := by omega
  simp [from?, hk, h]

theorem slice?_of_append {text s tail : List Char} {p : Position}
    (h : from? text p = some (s ++ tail)) :
    slice? text ⟨p, { p with column := p.column + s.length }⟩ = some s := by
  have hw : (p.column + (s.length : Int) - p.column).toNat = s.length := by omega
  have hle : p.column ≤ p.column + (s.length : Int) := by omega
  rw [slice?, if_pos ⟨rfl, hle⟩, h]
  simp only [hw]
  simp [Option.filter]

/-! ## The lines of the body -/

/-- The title line is among the lines, and what is below it is the body. -/
theorem drop_of_splitTitle? {n offset : Nat} {ls below : List Line} {symbol : List Char}
    (h : splitTitle? n ls = some (symbol, below, offset)) :
    n ≤ offset ∧ ls.drop (offset - n) = below := by
  induction ls generalizing n with
  | nil => simp [splitTitle?] at h
  | cons line ls ih =>
    rw [splitTitle?] at h
    split at h
    · obtain ⟨_, -, h⟩ := Option.map_eq_some_iff.1 h
      simp only [Prod.mk.injEq] at h
      obtain ⟨-, rfl, rfl⟩ := h
      exact ⟨by omega, by simp⟩
    · obtain ⟨hle, hdrop⟩ := ih h
      refine ⟨by omega, ?_⟩
      rw [show offset - n = offset - (n + 1) + 1 by omega, List.drop_succ_cons, hdrop]

/-- **The lines of the body are lines of the page**, counted on from the offset.  The last line of
the page is no line of the body if it is empty. -/
theorem hasLines_body (text : List Char) :
    HasLines (ofText text).body ((lines text).drop (ofText text).offset) := by
  unfold ofText
  dsimp only
  split
  · next symbol below offset h =>
    obtain ⟨hle, hdrop⟩ := drop_of_splitTitle? h
    rw [List.drop_drop, Nat.add_sub_of_le hle] at hdrop
    dsimp only
    rw [hdrop]
    refine hasLines_unlines fun l hl => ?_
    rw [← hdrop] at hl
    exact isUnbroken_of_mem_lines (List.mem_of_mem_drop hl)
  · exact .inl rfl

/-- **A line of the body is the line of the page with its number.** -/
theorem line?_body {text : List Char} {k : Nat} {line : Line}
    (h : (lines (ofText text).body)[k]? = some line) :
    line? text ((ofText text).offset + 1 + k) = some line := by
  have hline : ((lines text).drop (ofText text).offset)[k]? = some line := by
    obtain ⟨tail, htail⟩ := (hasLines_body text).isPrefix
    rw [← htail, List.getElem?_append_left (List.getElem?_eq_some_iff.1 h).1, h]
  rw [List.getElem?_drop] at hline
  rw [line?, if_pos (by omega), ← hline]
  congr 1
  omega

/-- Whether a page has some lines from the line `n` on. -/
def Holds (text : List Char) (n : Int) (ls : List Line) : Prop :=
  ∀ (k : Nat) (l : Line), ls[k]? = some l → line? text (n + k) = some l

theorem holds_body (text : List Char) :
    Holds text ((ofText text).offset + 1) (lines (ofText text).body) :=
  fun _ _ h => line?_body h

theorem Holds.left {text : List Char} {n : Int} {xs ys : List Line} (h : Holds text n (xs ++ ys)) :
    Holds text n xs := by
  intro k l hl
  exact h k l (by rw [List.getElem?_append_left (List.getElem?_eq_some_iff.1 hl).1, hl])

theorem Holds.right {text : List Char} {n : Int} {xs ys : List Line}
    (h : Holds text n (xs ++ ys)) : Holds text (n + xs.length) ys := by
  intro k l hl
  have := h (xs.length + k) l (by rw [List.getElem?_append_right (by omega), ← hl]; congr 1; omega)
  rwa [Int.natCast_add, ← Int.add_assoc] at this

theorem Holds.head {text : List Char} {n : Int} {l : Line} {ls : List Line}
    (h : Holds text n (l :: ls)) : line? text n = some l := by
  simpa using h 0 l rfl

theorem Holds.tail {text : List Char} {n : Int} {l : Line} {ls : List Line}
    (h : Holds text n (l :: ls)) : Holds text (n + 1) ls :=
  (show Holds text n ([l] ++ ls) from h).right

theorem Holds.isUnbroken {text : List Char} {n : Int} {ls : List Line} (h : Holds text n ls)
    {l : Line} (hl : l ∈ ls) : IsUnbroken l := by
  obtain ⟨k, hk⟩ := List.getElem?_of_mem hl
  have hline := h k l hk
  rw [line?] at hline
  split at hline
  · exact isUnbroken_of_mem_lines (List.mem_of_getElem? hline)
  · simp at hline

/-- **A value is where its sighting says**, its line and the region below it. -/
theorem holds_sighting {text : List Char} {s : Sighting}
    (h : s.StandsIn ((ofText text).offset + 1) (lines (ofText text).body)) :
    Holds text s.number (s.line :: s.region) := by
  obtain ⟨above, below, hls, hn, hr⟩ := h
  have hbody := holds_body text
  rw [hls, ← region_append_drop (indent s.line) below, ← List.cons_append] at hbody
  rw [hn, hr]
  exact hbody.right.left

end Page
end ValueDocs
