import Mathlib.Data.List.Forall2
import ValueDocs.Directive.Keyword
import ValueDocs.Proofs.Text.Caseless
import ValueDocs.Proofs.Text.Trim

/-!
# Proofs/Directive/Keywords — what a list of keywords matches

The words of a text are what blanks part in it (`words_eq_iff`).  A text writes a keyword when it
has its words in order, in any case, with blanks or none between them (`Writes`).  A list of
keywords makes a label of exactly those texts that write one of them and then a colon
(`isLabel_keywords_iff`), and introduces something in exactly those that write one of them and then
a gap (`exists_afterIntroduction?_keywords_iff`).  The one exception is a list without a keyword
that has a word: then a colon alone is a label.
-/

namespace ValueDocs

open Text

/-! ## Words -/

namespace Text

/-- A word has a letter and no blank. -/
structure IsWord (word : List Char) : Prop where
  ne_nil : word ≠ []
  not_isBlank : ∀ c ∈ word, isBlank c = false

/-- A text and the words in it, which blanks part from each other. -/
inductive AreWords : List Char → List (List Char) → Prop
  | none {gap : List Char} (hgap : isBlankLine gap = true) : AreWords gap []
  | more {gap word rest : List Char} {ws : List (List Char)} (hgap : isBlankLine gap = true)
      (hword : IsWord word) (hend : ∀ c t, rest = c :: t → isBlank c = true)
      (hrest : AreWords rest ws) : AreWords (gap ++ (word ++ rest)) (word :: ws)

@[simp] theorem words_nil : words [] = [] := rfl

theorem words_append_of_isBlankLine {gap : List Char} (hgap : isBlankLine gap = true)
    (s : List Char) : words (gap ++ s) = words s := by
  induction gap with
  | nil => rfl
  | cons c gap ih =>
    obtain ⟨hc, hgap⟩ := List.forall_mem_cons.1 (isBlankLine_iff.1 hgap)
    simp [words.eq_def (c :: (gap ++ s)), hc, ih (isBlankLine_iff.2 hgap)]

/-- A word ends where a blank or nothing follows. -/
theorem words_append_of_isWord {word rest : List Char} (hword : IsWord word)
    (hend : ∀ c t, rest = c :: t → isBlank c = true) :
    words (word ++ rest) = word :: words rest := by
  obtain ⟨hne, hletters⟩ := hword
  induction word with
  | nil => exact absurd rfl hne
  | cons c word ih =>
    obtain ⟨hc, hletters⟩ := List.forall_mem_cons.1 hletters
    rcases word with _ | ⟨d, word⟩
    · rcases rest with _ | ⟨d, rest⟩
      · simp [words.eq_def [c], hc]
      · simp [words.eq_def (c :: d :: rest), hc, hend d rest rfl]
    · have hd : isBlank d = false := hletters d List.mem_cons_self
      have ih := ih (List.cons_ne_nil _ _) hletters
      rw [List.cons_append] at ih
      simp [words.eq_def (c :: d :: (word ++ rest)), hc, hd, ih]

theorem words_of_isBlankLine {gap : List Char} (hgap : isBlankLine gap = true) :
    words gap = [] := by
  have happend := words_append_of_isBlankLine hgap []
  rwa [List.append_nil] at happend

/-- A text that is not blank has a first word. -/
theorem exists_eq_append_of_not_isBlankLine {s : List Char} (h : isBlankLine s = false) :
    ∃ gap word rest, s = gap ++ (word ++ rest) ∧ isBlankLine gap = true ∧ IsWord word ∧
      ∀ c t, rest = c :: t → isBlank c = true := by
  refine ⟨s.takeWhile isBlank, (trimStart s).takeWhile (!isBlank ·),
    (trimStart s).dropWhile (!isBlank ·), ?_, ?_, ⟨?_, ?_⟩, ?_⟩
  · rw [List.takeWhile_append_dropWhile]
    exact List.takeWhile_append_dropWhile.symm
  · exact isBlankLine_iff.2 fun c hc => List.mem_takeWhile_imp hc
  · have hne : trimStart s ≠ [] := mt trimStart_eq_nil_iff.1 (by simp [h])
    obtain ⟨c, t, hs⟩ := List.exists_cons_of_ne_nil hne
    rw [hs, List.takeWhile_cons_of_pos (by simp [not_isBlank_of_trimStart_eq_cons hs])]
    exact List.cons_ne_nil _ _
  · intro c hc
    simpa using List.mem_takeWhile_imp hc
  · intro c t hrest
    have := List.head?_dropWhile_not (!isBlank ·) (trimStart s)
    simpa [hrest] using this

theorem areWords_words (s : List Char) : AreWords s (words s) := by
  cases hblank : isBlankLine s with
  | true =>
    rw [words_of_isBlankLine hblank]
    exact .none hblank
  | false =>
    obtain ⟨gap, word, rest, hs, hgap, hword, hend⟩ := exists_eq_append_of_not_isBlankLine hblank
    rw [hs, words_append_of_isBlankLine hgap, words_append_of_isWord hword hend]
    exact .more hgap hword hend (areWords_words rest)
termination_by s.length
decreasing_by
  have := List.length_pos_iff.2 hword.ne_nil
  rw [hs, List.length_append, List.length_append]
  omega

/-- **The words of a text** are what blanks part in it. -/
theorem words_eq_iff {s : List Char} {ws : List (List Char)} : words s = ws ↔ AreWords s ws := by
  constructor
  · rintro rfl
    exact areWords_words s
  · intro h
    induction h with
    | none hgap => exact words_of_isBlankLine hgap
    | more hgap hword hend _ ih =>
      rw [words_append_of_isBlankLine hgap, words_append_of_isWord hword hend, ih]

/-- A text has no words exactly when it is blank. -/
theorem AreWords.eq_nil_iff {s : List Char} {ws : List (List Char)} (h : AreWords s ws) :
    ws = [] ↔ isBlankLine s = true := by
  rw [← words_eq_iff.2 h, words_eq_iff]
  constructor
  · rintro ⟨hgap⟩
    exact hgap
  · exact .none

theorem AreWords.isWord {s : List Char} {ws : List (List Char)} (h : AreWords s ws) :
    ∀ word ∈ ws, IsWord word := by
  induction h with
  | none => exact List.forall_mem_nil _
  | more _ hword _ _ ih => exact List.forall_mem_cons.2 ⟨hword, ih⟩

end Text

namespace Directive

/-! ## Writing a keyword -/

/-- Whether a text writes a word, whatever the case of its letters. -/
def WritesWord (word s : List Char) : Prop :=
  List.Forall₂ (fun letter c => CaseMap.sameLetter letter c = true) word s

/-- A keyword and a text that writes it: its words in order, with blanks or none between them. -/
inductive Writes : Keyword → List Char → Prop
  | last {word s : List Char} (h : WritesWord word s) : Writes [word] s
  | more {word next s gap t : List Char} {words : Keyword} (h : WritesWord word s)
      (hgap : isBlankLine gap = true) (rest : Writes (next :: words) t) :
      Writes (word :: next :: words) (s ++ (gap ++ t))

theorem afterWord?_eq_some_iff {word s rest : List Char} :
    afterWord? word s = some rest ↔ ∃ written, s = written ++ rest ∧ WritesWord word written := by
  induction word generalizing s with
  | nil =>
    constructor
    · intro h
      exact ⟨[], Option.some.inj h, .nil⟩
    · rintro ⟨_, rfl, ⟨⟩⟩
      rfl
  | cons letter word ih =>
    constructor
    · intro h
      rcases s with _ | ⟨c, s⟩
      · cases h
      · rw [afterWord?] at h
        split at h
        · next hc =>
          obtain ⟨written, rfl, hwritten⟩ := ih.1 h
          exact ⟨c :: written, rfl, .cons hc hwritten⟩
        · cases h
    · rintro ⟨_, rfl, hwritten⟩
      rcases hwritten with _ | ⟨hc, hwritten⟩
      rw [List.cons_append, afterWord?, if_pos hc]
      exact ih.2 ⟨_, rfl, hwritten⟩

/-- What writes a word starts with no blank. -/
theorem WritesWord.exists_eq_cons {word s : List Char} (h : WritesWord word s)
    (hword : IsWord word) : ∃ c t, s = c :: t ∧ isBlank c = false := by
  rcases h with _ | ⟨hc, _⟩
  · exact absurd rfl hword.ne_nil
  · exact ⟨_, _, rfl, CaseMap.not_isBlank_of_sameLetter hc (hword.not_isBlank _ (by simp))⟩

theorem Writes.exists_eq_cons {k : Keyword} {s : List Char} (h : Writes k s)
    (hk : ∀ word ∈ k, IsWord word) : ∃ c t, s = c :: t ∧ isBlank c = false := by
  cases h with
  | last h => exact h.exists_eq_cons (hk _ (by simp))
  | more h _ _ =>
    obtain ⟨c, t, rfl, hc⟩ := h.exists_eq_cons (hk _ (by simp))
    exact ⟨c, _, rfl, hc⟩

theorem Writes.ne_nil {k : Keyword} {s : List Char} (h : Writes k s) : k ≠ [] := by
  cases h <;> exact List.cons_ne_nil _ _

/-- **A keyword is taken off a text exactly when the text starts by writing it.** -/
theorem afterKeyword?_eq_some_iff {k : Keyword} (hne : k ≠ []) (hk : ∀ word ∈ k, IsWord word)
    {s rest : List Char} :
    afterKeyword? k s = some rest ↔ ∃ written, s = written ++ rest ∧ Writes k written := by
  induction k generalizing s with
  | nil => exact absurd rfl hne
  | cons word k ih =>
    rcases k with _ | ⟨next, more⟩
    · rw [afterKeyword?, afterWord?_eq_some_iff]
      constructor
      · rintro ⟨written, hs, hwritten⟩
        exact ⟨written, hs, .last hwritten⟩
      · rintro ⟨written, hs, ⟨hwritten⟩⟩
        exact ⟨written, hs, hwritten⟩
    · have ih {t : List Char} := ih (List.cons_ne_nil _ _)
        (fun w hw => hk w (List.mem_cons_of_mem _ hw)) (s := t)
      simp only [afterKeyword?, Option.bind_eq_bind, Option.bind_eq_some_iff]
      constructor
      · rintro ⟨middle, hword, hmore⟩
        obtain ⟨written, rfl, hwritten⟩ := afterWord?_eq_some_iff.1 hword
        obtain ⟨later, hmiddle, hlater⟩ := ih.1 hmore
        refine ⟨written ++ (middle.takeWhile isBlank ++ later), ?_, .more hwritten ?_ hlater⟩
        · rw [List.append_assoc, List.append_assoc, ← hmiddle]
          exact congrArg _ List.takeWhile_append_dropWhile.symm
        · exact isBlankLine_iff.2 fun c hc => List.mem_takeWhile_imp hc
      · rintro ⟨_, rfl, hwrites⟩
        cases hwrites with
        | @more _ _ written gap later _ hwritten hgap hlater =>
          refine ⟨gap ++ (later ++ rest),
            afterWord?_eq_some_iff.2 ⟨written, by simp, hwritten⟩, ?_⟩
          -- no blank is a letter, so the next word starts where the blanks end
          obtain ⟨c, t, hcons, hc⟩ := hlater.exists_eq_cons
            fun w hw => hk w (List.mem_cons_of_mem _ hw)
          rw [trimStart_append hgap ⟨c, t ++ rest, by rw [hcons]; rfl, hc⟩]
          exact ih.2 ⟨later, rfl, hlater⟩

/-! ## A list of keywords -/

/-- Whether one of some texts has a word. -/
def HasKeyword (texts : List String) : Prop :=
  ∃ text ∈ texts, isBlankLine text.toList = false

/-- Whether a text starts by writing the words of one of some texts, and goes on with `rest`. -/
def StartsWithKeyword (texts : List String) (s rest : List Char) : Prop :=
  ∃ text ∈ texts, ∃ k written, AreWords text.toList k ∧ Writes k written ∧ s = written ++ rest

/-- Whether a text is one of some keywords and a colon, up to blanks. -/
def IsLabelOf (texts : List String) (content : List Char) : Prop :=
  ∃ rest, StartsWithKeyword texts (trim content) rest ∧ trim rest = [':']

/-- Whether a text starts with one of some keywords and a gap, and goes on. -/
def IsIntroductionOf (texts : List String) (content : List Char) : Prop :=
  ∃ c d t, StartsWithKeyword texts content (c :: d :: t) ∧ isBlank c = true

variable {texts : List String} {content rest : List Char}

theorem StartsWithKeyword.hasKeyword (h : StartsWithKeyword texts content rest) :
    HasKeyword texts := by
  obtain ⟨text, hmem, k, written, hk, hwrites, -⟩ := h
  exact ⟨text, hmem, Bool.eq_false_iff.2 fun hblank => hwrites.ne_nil (hk.eq_nil_iff.2 hblank)⟩

theorem mem_filter_words_iff {k : Keyword} :
    k ∈ (texts.map fun s => words s.toList).filter (· ≠ []) ↔
      ∃ text ∈ texts, AreWords text.toList k ∧ k ≠ [] := by
  simp only [List.mem_filter, List.mem_map, decide_eq_true_eq, words_eq_iff]
  constructor
  · rintro ⟨⟨text, hmem, hk⟩, hne⟩
    exact ⟨text, hmem, hk, hne⟩
  · rintro ⟨text, hmem, hk, hne⟩
    exact ⟨⟨text, hmem, hk⟩, hne⟩

theorem hasKeyword_iff :
    HasKeyword texts ↔ ∃ k, k ∈ (texts.map fun s => words s.toList).filter (· ≠ []) := by
  simp only [mem_filter_words_iff]
  constructor
  · rintro ⟨text, hmem, hword⟩
    exact ⟨_, text, hmem, areWords_words _, fun hnil =>
      Bool.eq_false_iff.1 hword ((areWords_words _).eq_nil_iff.1 hnil)⟩
  · rintro ⟨k, text, hmem, hk, hne⟩
    exact ⟨text, hmem, Bool.eq_false_iff.2 fun hblank => hne (hk.eq_nil_iff.2 hblank)⟩

theorem mem_keywords_iff (h : HasKeyword texts) {k : Keyword} :
    k ∈ keywords texts ↔ ∃ text ∈ texts, AreWords text.toList k ∧ k ≠ [] := by
  obtain ⟨k', hk'⟩ := hasKeyword_iff.1 h
  rw [keywords, ← mem_filter_words_iff]
  split
  · next hnil => exact absurd (hnil ▸ hk') List.not_mem_nil
  · rfl

theorem keywords_of_not_hasKeyword (h : ¬HasKeyword texts) : keywords texts = [[]] := by
  rw [hasKeyword_iff, not_exists, ← List.eq_nil_iff_forall_not_mem] at h
  rw [keywords, h]

/-- **The keywords of a list are taken off the texts that start with one of them.** -/
theorem exists_afterKeyword?_keywords_iff (h : HasKeyword texts) :
    (∃ k ∈ keywords texts, afterKeyword? k content = some rest) ↔
      StartsWithKeyword texts content rest := by
  simp only [mem_keywords_iff h]
  constructor
  · rintro ⟨k, ⟨text, hmem, hk, hne⟩, hafter⟩
    obtain ⟨written, hcontent, hwrites⟩ := (afterKeyword?_eq_some_iff hne hk.isWord).1 hafter
    exact ⟨text, hmem, k, written, hk, hwrites, hcontent⟩
  · rintro ⟨text, hmem, k, written, hk, hwrites, hcontent⟩
    refine ⟨k, ⟨text, hmem, hk, hwrites.ne_nil⟩, ?_⟩
    exact (afterKeyword?_eq_some_iff hwrites.ne_nil hk.isWord).2 ⟨written, hcontent, hwrites⟩

/-! ## Labels and introductions -/

theorem isLabel_iff {ks : List Keyword} : isLabel ks content = true ↔
    ∃ rest, (∃ k ∈ ks, afterKeyword? k (trim content) = some rest) ∧ trim rest = [':'] := by
  rw [isLabel, List.any_eq_true]
  constructor
  · rintro ⟨k, hk, h⟩
    split at h
    · next rest hrest => exact ⟨rest, ⟨k, hk, hrest⟩, beq_iff_eq.1 h⟩
    · cases h
  · rintro ⟨rest, ⟨k, hk, hrest⟩, hcolon⟩
    exact ⟨k, hk, by rw [hrest]; exact beq_iff_eq.2 hcolon⟩

/-- **A list of keywords makes a label of the texts that write one of them and a colon.**  A list
without a keyword that has a word makes a label of a colon alone. -/
theorem isLabel_keywords_iff : isLabel (keywords texts) content = true ↔
    IsLabelOf texts content ∨ (¬HasKeyword texts ∧ trim content = [':']) := by
  rw [isLabel_iff, IsLabelOf]
  by_cases hword : HasKeyword texts
  · simp only [exists_afterKeyword?_keywords_iff hword, hword, not_true, false_and, or_false]
  · have hnone (rest : List Char) : ¬StartsWithKeyword texts (trim content) rest :=
      fun h => hword h.hasKeyword
    simp [keywords_of_not_hasKeyword hword, hnone, hword, afterKeyword?, trim_trim]

theorem exists_afterGap?_iff {s : List Char} : (∃ stated, afterGap? s = some stated) ↔
    ∃ c d t, s = c :: d :: t ∧ isBlank c = true := by
  rw [afterGap?.eq_def]
  rcases s with _ | ⟨c, _ | ⟨d, t⟩⟩
  · simp
  · by_cases hc : isBlank c = true <;> simp [hc]
  · by_cases hc : isBlank c = true
    · by_cases hd : isBlank d = true
      · rcases hrest : t.dropWhile isBlank with _ | ⟨e, t⟩
        · simpa [hc, hd, hrest] using
            ⟨_, List.getLast?_eq_some_getLast (List.cons_ne_nil d (t.takeWhile isBlank))⟩
        · simp [hc, hd, hrest]
      · simp [hc, hd]
    · simp [hc]

theorem exists_afterIntroduction?_iff {ks : List Keyword} :
    (∃ stated, afterIntroduction? ks content = some stated) ↔
      ∃ rest, (∃ k ∈ ks, afterKeyword? k content = some rest) ∧
        ∃ stated, afterGap? rest = some stated := by
  simp only [← Option.isSome_iff_exists, afterIntroduction?, List.findSome?_isSome_iff]
  constructor
  · rintro ⟨k, hk, h⟩
    obtain ⟨stated, h⟩ := Option.isSome_iff_exists.1 h
    obtain ⟨rest, hrest, hgap⟩ := Option.bind_eq_some_iff.1 h
    exact ⟨rest, ⟨k, hk, hrest⟩, by rw [hgap]; rfl⟩
  · rintro ⟨rest, ⟨k, hk, hrest⟩, hgap⟩
    exact ⟨k, hk, by rwa [hrest]⟩

/-- **A list of keywords introduces what stands behind one of them and a gap**, in a text that does
not start with a gap itself. -/
theorem exists_afterIntroduction?_keywords_iff
    (hstart : ∀ c t, content = c :: t → isBlank c = false) :
    (∃ stated, afterIntroduction? (keywords texts) content = some stated) ↔
      IsIntroductionOf texts content := by
  rw [exists_afterIntroduction?_iff, IsIntroductionOf]
  simp only [exists_afterGap?_iff]
  by_cases hword : HasKeyword texts
  · simp only [exists_afterKeyword?_keywords_iff hword]
    constructor
    · rintro ⟨_, h, c, d, t, rfl, hc⟩
      exact ⟨c, d, t, h, hc⟩
    · rintro ⟨c, d, t, h, hc⟩
      exact ⟨_, h, c, d, t, rfl, hc⟩
  · -- without a keyword nothing stands in front of the gap
    refine iff_of_false ?_ fun ⟨_, _, _, h, _⟩ => hword h.hasKeyword
    rintro ⟨_, ⟨k, hk, hrest⟩, c, d, t, rfl, hc⟩
    rw [keywords_of_not_hasKeyword hword, List.mem_singleton] at hk
    subst hk
    exact absurd hc (by simp [hstart c _ (Option.some.inj hrest)])

end Directive
end ValueDocs
