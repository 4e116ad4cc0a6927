import ValueDocs.Text.Blank

/-!
# Text/Lines — the lines of a text

A text is cut at line breaks: line feed, carriage return, the two as a pair, vertical tab, form
feed, three information separators, next line, and the two separators of Unicode.  A break at the
very end opens no further line.
-/

namespace ValueDocs.Text

/-- Whether a character ends a line. -/
def isLineBreak (c : Char) : Bool :=
  let n := c.toNat
  (0xa ≤ n && n ≤ 0xd) || (0x1c ≤ n && n ≤ 0x1e) || n == 0x85 || n == 0x2028 || n == 0x2029

/-- The lines of a text, without their breaks. -/
def lines : List Char → List (List Char)
  | [] => []
  | '\r' :: '\n' :: s => [] :: lines s
  | c :: s =>
    if isLineBreak c then [] :: lines s
    else match lines s with
      | [] => [[c]]
      | line :: rest => (c :: line) :: rest

/-- The lines joined by line feeds. -/
def unlines (ls : List (List Char)) : List Char := ['\n'].intercalate ls

/-- The text with every carriage return, alone or before a line feed, read as a line feed. -/
def normalizeBreaks : List Char → List Char
  | [] => []
  | '\r' :: '\n' :: s => '\n' :: normalizeBreaks s
  | c :: s => (if c = '\r' then '\n' else c) :: normalizeBreaks s

/-- The pieces of a text between occurrences of a character. -/
def splitAt (sep : Char) : List Char → List (List Char)
  | [] => [[]]
  | c :: s =>
    if c = sep then [] :: splitAt sep s
    else match splitAt sep s with
      | [] => [[c]]
      | piece :: pieces => (c :: piece) :: pieces

/-- Whether a text occurs within another. -/
def occurs (part : List Char) : List Char → Bool
  | [] => part.isEmpty
  | c :: s => part.isPrefixOf (c :: s) || occurs part s

@[simp] theorem lines_nil : lines [] = [] := by simp [lines]

theorem lines_cons_of_isLineBreak {c : Char} {s : List Char} (h : isLineBreak c = true)
    (hs : c = '\r' → ∀ t, s ≠ '\n' :: t) : lines (c :: s) = [] :: lines s := by
  rw [lines, if_pos h]
  exact fun t hc ht => hs hc t ht

/-- No line holds a line break. -/
theorem not_isLineBreak_of_mem_lines {s : List Char} :
    ∀ line ∈ lines s, ∀ c ∈ line, isLineBreak c = false := by
  fun_induction lines s with
  | case1 => simp
  | case2 s ih => simpa using ih
  | case3 c s _ h ih => simpa using ih
  | case4 c s _ h hs ih => simpa using h
  | case5 c s _ h line rest hs ih =>
    intro l hl x hx
    rw [hs] at ih
    rcases List.mem_cons.1 hl with rfl | hl
    · rcases List.mem_cons.1 hx with rfl | hx
      · simpa using h
      · exact ih line (List.mem_cons_self ..) x hx
    · exact ih l (List.mem_cons_of_mem _ hl) x hx

end ValueDocs.Text
