import Mathlib.Data.List.TakeWhile
import ValueDocs.Text.Blank

/-!
# Proofs/Text/Trim — what trimming leaves

Trimming an end leaves a prefix (`trimEndBy_isPrefix`) and touches nothing in front of a character
that stays (`trimEndBy_append`).  A text that is trimmed already is trimmed to itself
(`trim_eq_self_iff`).
-/

namespace ValueDocs.Text

variable {p : Char → Bool}

/-! ## One end -/

theorem trimEndBy_isPrefix (p : Char → Bool) (s : List Char) : trimEndBy p s <+: s := by
  obtain ⟨tail, hs, -⟩ := exists_trimEndBy_append p s
  exact ⟨tail, hs.symm⟩

/-- Trimming stops at the last character that stays, whatever stands before it. -/
theorem trimEndBy_append {s t : List Char} (ht : trimEndBy p t ≠ []) :
    trimEndBy p (s ++ t) = s ++ trimEndBy p t := by
  induction s with
  | nil => rfl
  | cons c s ih =>
    have hne : (s ++ trimEndBy p t).isEmpty = false := by
      simp [List.isEmpty_eq_false_iff, ht]
    rw [List.cons_append, trimEndBy, ih]
    simp [hne]

theorem trimEndBy_concat {c : Char} (hc : p c = false) (s : List Char) :
    trimEndBy p (s ++ [c]) = s ++ [c] := by
  have ht : trimEndBy p [c] = [c] := by simp [trimEndBy, hc]
  rw [trimEndBy_append (by simp [ht]), ht]

/-- The last character that trimming leaves is not of the class. -/
theorem not_of_trimEndBy_eq_concat {s t : List Char} {c : Char} (h : trimEndBy p s = t ++ [c]) :
    p c = false := by
  induction s generalizing t with
  | nil => simp at h
  | cons d s ih =>
    rw [trimEndBy] at h
    split at h
    · simp at h
    · next hd =>
      rcases t with _ | ⟨e, t⟩
      · obtain ⟨rfl, hs⟩ := List.cons_eq_cons.1 h
        simpa [hs] using hd
      · exact ih (List.cons_eq_cons.1 h).2

/-! ## Both ends -/

theorem trim_prefix_trimStart (s : List Char) : trim s <+: trimStart s :=
  trimEndBy_isPrefix isBlank _

theorem subset_trim (s : List Char) : trim s ⊆ s :=
  fun _ hc => (List.dropWhile_sublist isBlank).subset ((trim_prefix_trimStart s).subset hc)

theorem isBlankLine_iff {s : List Char} : isBlankLine s = true ↔ ∀ c ∈ s, isBlank c = true :=
  List.all_eq_true

/-- What is left at the front is no blank. -/
theorem not_isBlank_of_trimStart_eq_cons {s t : List Char} {c : Char}
    (h : trimStart s = c :: t) : isBlank c = false := by
  have hc := List.head?_dropWhile_not isBlank s
  rw [show s.dropWhile isBlank = c :: t from h] at hc
  simpa using hc

theorem trimStart_cons {c : Char} (hc : isBlank c = false) (s : List Char) :
    trimStart (c :: s) = c :: s :=
  List.dropWhile_cons_of_neg (by simp [hc])

/-- Blanks in front of a text that starts with none are what trimming takes. -/
theorem trimStart_append {gap s : List Char} (hgap : isBlankLine gap = true)
    (hs : ∃ c t, s = c :: t ∧ isBlank c = false) : trimStart (gap ++ s) = s := by
  obtain ⟨c, t, rfl, hc⟩ := hs
  change List.dropWhile isBlank _ = _
  rw [List.dropWhile_append_of_pos (isBlankLine_iff.1 hgap)]
  exact trimStart_cons hc t

theorem trimStart_eq_nil_iff {s : List Char} : trimStart s = [] ↔ isBlankLine s = true :=
  List.dropWhile_eq_nil_iff.trans isBlankLine_iff.symm

/-- A text is trimmed to nothing exactly when it is blank. -/
theorem trim_eq_nil_iff {s : List Char} : trim s = [] ↔ isBlankLine s = true := by
  change trimEndBy isBlank (trimStart s) = [] ↔ _
  rw [trimEndBy_eq_nil_iff, List.all_eq_true, isBlankLine_iff]
  constructor
  · intro h c hc
    rw [← List.takeWhile_append_dropWhile (p := isBlank) (l := s)] at hc
    rcases List.mem_append.1 hc with hc | hc
    · exact List.mem_takeWhile_imp hc
    · exact h c hc
  · exact fun h c hc => h c ((List.dropWhile_sublist isBlank).subset hc)

/-- The first character that is left is no blank. -/
theorem not_isBlank_of_trim_eq_cons {s t : List Char} {c : Char} (h : trim s = c :: t) :
    isBlank c = false := by
  obtain ⟨u, hu⟩ := trim_prefix_trimStart s
  rw [h, List.cons_append] at hu
  exact not_isBlank_of_trimStart_eq_cons hu.symm

/-- **A text is trimmed when neither of its ends is blank.** -/
theorem trim_eq_self_iff {s : List Char} : trim s = s ↔
    (∀ c t, s = c :: t → isBlank c = false) ∧ ∀ t c, s = t ++ [c] → isBlank c = false := by
  constructor
  · intro h
    refine ⟨fun c t hs => not_isBlank_of_trim_eq_cons (h.trans hs), fun t c hs => ?_⟩
    exact not_of_trimEndBy_eq_concat (h.trans hs)
  · rintro ⟨hhead, hlast⟩
    have hstart : trimStart s = s := by
      rcases s with _ | ⟨c, t⟩
      · rfl
      · exact trimStart_cons (hhead c t rfl) t
    change trimEndBy isBlank (trimStart s) = s
    rw [hstart]
    rcases List.eq_nil_or_concat s with rfl | ⟨t, c, hs⟩
    · rfl
    · rw [List.concat_eq_append] at hs
      rw [hs, trimEndBy_concat (hlast t c hs)]

/-- What is trimmed is not trimmed again. -/
theorem trim_trim (s : List Char) : trim (trim s) = trim s :=
  trim_eq_self_iff.2 ⟨fun _ _ h => not_isBlank_of_trim_eq_cons h,
    fun _ _ h => not_of_trimEndBy_eq_concat h⟩

end ValueDocs.Text
