/-!
# Text/Blank — blank characters, and trimming a text at its ends

Blank characters are the white space of Unicode together with the four information separators
`\x1c` to `\x1f`.  Trimming takes the longest run of unwanted characters off an end; the laws below
say that what is taken is a prefix or suffix of unwanted characters and nothing else.
-/

namespace ValueDocs.Text

/-- Whether a character is blank. -/
def isBlank (c : Char) : Bool :=
  let n := c.toNat
  (0x9 ≤ n && n ≤ 0xd) || (0x1c ≤ n && n ≤ 0x20) || n == 0x85 || n == 0xa0 || n == 0x1680 ||
    (0x2000 ≤ n && n ≤ 0x200a) || n == 0x2028 || n == 0x2029 || n == 0x202f || n == 0x205f ||
    n == 0x3000

/-- Whether a line holds blank characters only. -/
def isBlankLine (line : List Char) : Bool := line.all isBlank

/-! ## Trimming

Both ends are trimmed of the characters of one class; blank characters are the usual one. -/

/-- The text without its leading characters of class `p`. -/
def trimStartBy (p : Char → Bool) (s : List Char) : List Char := s.dropWhile p

/-- The text without its trailing characters of class `p`. -/
def trimEndBy (p : Char → Bool) : List Char → List Char
  | [] => []
  | c :: s =>
    let rest := trimEndBy p s
    if rest.isEmpty && p c then [] else c :: rest

/-- The text without its leading and trailing characters of class `p`. -/
def trimBy (p : Char → Bool) (s : List Char) : List Char := trimEndBy p (trimStartBy p s)

/-- The text without its leading blanks. -/
abbrev trimStart : List Char → List Char := trimStartBy isBlank

/-- The text without its trailing blanks. -/
abbrev trimEnd : List Char → List Char := trimEndBy isBlank

/-- The text without its leading and trailing blanks. -/
abbrev trim : List Char → List Char := trimBy isBlank

@[simp] theorem trimEndBy_nil (p : Char → Bool) : trimEndBy p [] = [] := rfl

/-- What a trimmed end loses is a suffix of characters of the class. -/
theorem exists_trimEndBy_append (p : Char → Bool) (s : List Char) :
    ∃ tail, s = trimEndBy p s ++ tail ∧ tail.all p = true := by
  induction s with
  | nil => exact ⟨[], rfl, rfl⟩
  | cons c s ih =>
    obtain ⟨tail, hs, ht⟩ := ih
    by_cases h : ((trimEndBy p s).isEmpty && p c) = true
    · have hc : p c = true := (Bool.and_eq_true _ _ ▸ h).2
      have he : trimEndBy p s = [] := List.isEmpty_iff.1 (Bool.and_eq_true _ _ ▸ h).1
      refine ⟨c :: tail, ?_, by simp [hc, ht]⟩
      rw [he, List.nil_append] at hs
      rw [trimEndBy, if_pos h, hs, List.nil_append]
    · refine ⟨tail, ?_, ht⟩
      rw [trimEndBy, if_neg h, List.cons_append, ← hs]

/-- A trimmed end is empty exactly when every character is of the class. -/
theorem trimEndBy_eq_nil_iff (p : Char → Bool) (s : List Char) :
    trimEndBy p s = [] ↔ s.all p = true := by
  induction s with
  | nil => simp
  | cons c s ih =>
    by_cases h : (trimEndBy p s).isEmpty && p c
    · have hc : p c = true := by simp_all
      simp_all [trimEndBy]
    · simp only [trimEndBy, h]
      constructor
      · simp
      · intro hall
        simp_all

/-! ## Words -/

/-- The maximal runs of characters that are not blank. -/
def words : List Char → List (List Char)
  | [] => []
  | c :: s =>
    if isBlank c then words s
    else match s with
      | [] => [[c]]
      | d :: _ =>
        if isBlank d then [c] :: words s
        else match words s with
          | [] => [[c]]
          | w :: ws => (c :: w) :: ws

end ValueDocs.Text
