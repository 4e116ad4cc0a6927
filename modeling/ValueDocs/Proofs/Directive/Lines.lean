import Mathlib.Data.List.TakeDrop
import ValueDocs.Directive.Keyword
import ValueDocs.Directive.ValueItem
import ValueDocs.Proofs.Text.Trim

/-!
# Proofs/Directive/Lines — the parts of a line put together again

Reading a list item or a value loses nothing: the parts make up the line (`exists_of_ofLine?`,
`exists_of_ofContent?`).  Indentation counts spaces and tabs alone, so dropping it trims a line
exactly when no other blank stands in front of its text (`trim_prefix_drop_indent_iff`).
-/

namespace ValueDocs.Directive

open Text

/-! ## Indentation -/

theorem isBlank_of_isIndent {c : Char} (h : isIndent c = true) : isBlank c = true := by
  rw [isIndent, Bool.or_eq_true, beq_iff_eq, beq_iff_eq] at h
  rcases h with rfl | rfl <;> decide

/-- Whether only spaces and tabs stand in front of the text of a line. -/
def HasPlainIndent (line : Line) : Prop := ∀ c ∈ line.takeWhile isBlank, isIndent c = true

instance (line : Line) : Decidable (HasPlainIndent line) :=
  List.decidableBAll _ (line.takeWhile isBlank)

/-- Spaces and tabs are the first of the blanks in front of a line. -/
theorem takeWhile_isIndent (line : Line) :
    (line.takeWhile isBlank).takeWhile isIndent = line.takeWhile isIndent := by
  rw [List.takeWhile_takeWhile]
  congr 1
  funext c
  have := @isBlank_of_isIndent c
  by_cases h : isIndent c = true <;> simp_all

theorem HasPlainIndent.indent_eq {line : Line} (h : HasPlainIndent line) :
    indent line = (line.takeWhile isBlank).length := by
  rw [indent, ← takeWhile_isIndent, List.takeWhile_eq_self_iff.2 h]

theorem drop_length_takeWhile (p : Char → Bool) (s : List Char) :
    s.drop (s.takeWhile p).length = s.dropWhile p := by
  have hs := List.takeWhile_append_dropWhile (p := p) (l := s)
  exact List.append_cancel_left
    ((List.prefix_iff_eq_append.1 <| List.takeWhile_prefix p).trans hs.symm)

theorem HasPlainIndent.drop_indent {line : Line} (h : HasPlainIndent line) :
    line.drop (indent line) = trimStart line := by
  rw [h.indent_eq]
  exact drop_length_takeWhile isBlank line

theorem isFilled_iff {line : Line} : isFilled line = true ↔ trim line ≠ [] := by
  rw [isFilled, Bool.not_eq_true', ne_eq, trim_eq_nil_iff, Bool.not_eq_true]

/-- **Dropping the indentation of a line leads to its text** exactly when only spaces and tabs
stand in front. -/
theorem trim_prefix_drop_indent_iff {line : Line} (hf : isFilled line = true) :
    trim line <+: line.drop (indent line) ↔ HasPlainIndent line := by
  constructor
  · rintro ⟨rest, hrest⟩
    obtain ⟨c, t, ht⟩ := List.exists_cons_of_ne_nil (isFilled_iff.1 hf)
    have hline : line = line.takeWhile isIndent ++ c :: (t ++ rest) := by
      rw [← List.cons_append, ← ht, hrest, indent, drop_length_takeWhile,
        List.takeWhile_append_dropWhile]
    have hlead : line.takeWhile isBlank = line.takeWhile isIndent := by
      calc line.takeWhile isBlank
          = (line.takeWhile isIndent ++ c :: (t ++ rest)).takeWhile isBlank :=
            congrArg _ hline
        _ = line.takeWhile isIndent ++ (c :: (t ++ rest)).takeWhile isBlank :=
            List.takeWhile_append_of_pos
              fun d hd => isBlank_of_isIndent (List.mem_takeWhile_imp hd)
        _ = line.takeWhile isIndent := by
            rw [List.takeWhile_cons_of_neg (by simp [not_isBlank_of_trim_eq_cons ht]),
              List.append_nil]
    exact fun d hd => List.mem_takeWhile_imp (hlead ▸ hd)
  · intro h
    rw [h.drop_indent]
    exact trim_prefix_trimStart line

/-! ## List items -/

namespace ListItem

theorem marker?_eq_append {s marker rest : List Char} (h : marker? s = some (marker, rest)) :
    s = marker ++ rest ∧ marker ≠ [] := by
  rcases s with _ | ⟨c, s⟩
  · simp [marker?] at h
  · rw [marker?] at h
    split at h
    · simp only [Option.some.injEq, Prod.mk.injEq] at h
      obtain ⟨rfl, rfl⟩ := h
      exact ⟨rfl, by simp⟩
    · split at h
      · simp at h
      · next digits stop rest' _ hspan =>
        split at h
        · simp only [Option.some.injEq, Prod.mk.injEq] at h
          obtain ⟨rfl, rfl⟩ := h
          rw [List.span_eq_takeWhile_dropWhile, Prod.mk.injEq] at hspan
          refine ⟨?_, by simp⟩
          rw [← List.takeWhile_append_dropWhile (p := isDigit) (l := c :: s), hspan.1, hspan.2]
          simp
        · simp at h
      · simp at h

/-- **The parts of a list item are its line.** -/
theorem exists_of_ofLine? {line : Line} {item : ListItem} (h : ofLine? line = some item) :
    item.lead = line.takeWhile isBlank ∧
      trimStart line = item.marker ++ item.gap ++ item.content ∧ item.marker ≠ [] := by
  simp only [ofLine?, Option.bind_eq_bind, Option.bind_eq_some_iff, Prod.exists] at h
  obtain ⟨marker, rest, hm, h⟩ := h
  split at h
  · simp at h
  · obtain rfl := Option.some.inj h
    obtain ⟨hs, hne⟩ := marker?_eq_append hm
    refine ⟨rfl, ?_, hne⟩
    rw [List.append_assoc, List.takeWhile_append_dropWhile]
    exact hs

theorem toLine_of_ofLine? {line : Line} {item : ListItem} (h : ofLine? line = some item) :
    item.toLine = line := by
  obtain ⟨hlead, hrest, -⟩ := exists_of_ofLine? h
  rw [toLine, hlead, List.append_assoc, List.append_assoc, ← List.append_assoc item.marker, ← hrest]
  exact List.takeWhile_append_dropWhile

/-- The content of an item stands at its content column. -/
theorem drop_contentColumn {line : Line} {item : ListItem} (h : ofLine? line = some item) :
    line.drop item.contentColumn = item.content := by
  rw [← toLine_of_ofLine? h, toLine]
  exact List.drop_left' (by simp [contentColumn, Nat.add_assoc])

theorem content_suffix {line : Line} {item : ListItem} (h : ofLine? line = some item) :
    item.content <:+ line :=
  drop_contentColumn h ▸ List.drop_suffix ..

theorem isFilled_of_ofLine? {line : Line} {item : ListItem} (h : ofLine? line = some item) :
    isFilled line = true := by
  obtain ⟨-, hrest, hne⟩ := exists_of_ofLine? h
  rw [isFilled_iff, ne_eq, trim_eq_nil_iff, ← trimStart_eq_nil_iff, hrest]
  simp [hne]

/-- A bullet and a blank in front of a text make an item. -/
theorem ofLine?_bullet (lead : List Char) (hlead : ∀ c ∈ lead, isBlank c = true) {c : Char}
    (hc : isBlank c = false) (content : List Char) :
    ofLine? (lead ++ '-' :: ' ' :: c :: content) = some ⟨lead, ['-'], [' '], c :: content⟩ := by
  have hdash : isBlank '-' = false := rfl
  have hspace : isBlank ' ' = true := rfl
  simp [ofLine?, marker?, isBullet, List.dropWhile_append_of_pos hlead,
    List.takeWhile_append_of_pos hlead, hdash, hspace, hc]

/-- Blanks in front do not matter to whether a line is an item. -/
theorem isItem_eq (line : Line) : isItem line =
    (marker? (trimStart line)).any fun r => !(r.2.takeWhile isBlank).isEmpty := by
  unfold isItem ofLine?
  change Option.isSome ((marker? (trimStart line)).bind _) = _
  rcases marker? (trimStart line) with _ | ⟨marker, rest⟩
  · rfl
  · rw [Option.bind_some, Option.any_some]
    dsimp only
    cases (rest.takeWhile isBlank).isEmpty <;> rfl

/-- The indentation of an item leads to its marker when only spaces and tabs stand in front. -/
theorem indent_eq_length_lead {line : Line} {item : ListItem} (h : ofLine? line = some item) :
    indent line = item.lead.length ↔ HasPlainIndent line := by
  rw [(exists_of_ofLine? h).1, HasPlainIndent, ← List.takeWhile_eq_self_iff, takeWhile_isIndent,
    indent]
  constructor
  · intro hl
    rw [← takeWhile_isIndent] at hl ⊢
    exact List.IsPrefix.eq_of_length ( List.takeWhile_prefix isIndent) hl
  · exact fun hl => congrArg List.length hl

end ListItem

/-! ## Keywords

What follows a keyword is the rest of the text. -/

/-- What a word and a text have in common at the start does not matter. -/
theorem afterWord?_append_append (head word s : List Char) :
    afterWord? (head ++ word) (head ++ s) = afterWord? word s := by
  induction head with
  | nil => rfl
  | cons c head ih =>
    rw [List.cons_append, List.cons_append, afterWord?, if_pos (CaseMap.sameLetter_self c), ih]

theorem afterWord?_append (word s : List Char) : afterWord? word (word ++ s) = some s := by
  simpa [afterWord?] using afterWord?_append_append word [] s

theorem suffix_of_afterWord? :
    ∀ {word s rest : List Char}, afterWord? word s = some rest → rest <:+ s
  | [], _, _, h => by
    obtain rfl := Option.some.inj h
    exact List.suffix_rfl
  | _ :: _, [], _, h => by simp [afterWord?] at h
  | letter :: word, c :: s, rest, h => by
    rw [afterWord?] at h
    split at h
    · exact (suffix_of_afterWord? h).trans (List.suffix_cons c s)
    · simp at h

theorem suffix_of_afterKeyword? :
    ∀ {k : Keyword} {s rest : List Char}, afterKeyword? k s = some rest → rest <:+ s
  | [], _, _, h => by
    obtain rfl := Option.some.inj h
    exact List.suffix_rfl
  | [_], _, _, h => suffix_of_afterWord? h
  | _ :: next :: more, s, rest, h => by
    simp only [afterKeyword?, Option.bind_eq_bind, Option.bind_eq_some_iff] at h
    obtain ⟨middle, hword, hmore⟩ := h
    exact (suffix_of_afterKeyword? hmore).trans
      ((List.dropWhile_suffix isBlank).trans (suffix_of_afterWord? hword))

theorem suffix_of_afterGap? {s rest : List Char} (h : afterGap? s = some rest) : rest <:+ s := by
  unfold afterGap? at h
  split at h
  · simp at h
  · next hdrop =>
    obtain rfl := Option.some.inj h
    exact hdrop ▸ List.dropWhile_suffix isBlank
  · next c gap htake hdrop =>
    obtain ⟨d, hd, rfl⟩ := Option.map_eq_some_iff.1 h
    have hs : s = c :: gap := by
      rw [← List.takeWhile_append_dropWhile (p := isBlank) (l := s), htake, hdrop,
        List.append_nil]
    obtain ⟨t, ht⟩ := List.getLast?_eq_some_iff.1 hd
    exact ⟨c :: t, by rw [hs, ht, List.cons_append]⟩

/-- What is introduced ends the text that introduces it. -/
theorem suffix_of_afterIntroduction? {ks : List Keyword} {content stated : List Char}
    (h : afterIntroduction? ks content = some stated) : stated <:+ content := by
  obtain ⟨k, -, hk⟩ := List.exists_of_findSome?_eq_some h
  obtain ⟨rest, hrest, hgap⟩ := Option.bind_eq_some_iff.1 hk
  exact (suffix_of_afterGap? hgap).trans (suffix_of_afterKeyword? hrest)

/-! ## Values -/

namespace ValueItem

theorem afterColon?_eq_append {s description : List Char} (h : afterColon? s = some description) :
    ∃ gap, s = gap ++ ':' :: description := by
  rw [afterColon?] at h
  split at h
  · next heq =>
    obtain rfl := Option.some.inj h
    exact ⟨s.takeWhile isBlank, by rw [← heq, List.takeWhile_append_dropWhile]⟩
  · simp at h

theorem name?_eq_append {content name rest : List Char} {start : Nat}
    (h : name? content = some (start, name, rest)) :
    ∃ lead close, content = lead ++ (name ++ (close ++ rest)) ∧ start = lead.length := by
  unfold name? at h
  split at h
  · next quoted =>
    dsimp only at h
    split at h
    · simp at h
    · next c rest' hdrop =>
      split at h
      · simp at h
      · simp only [Option.some.injEq, Prod.mk.injEq] at h
        obtain ⟨rfl, rfl, rfl⟩ := h
        refine ⟨['`'], [c], ?_, rfl⟩
        rw [List.singleton_append, List.singleton_append, ← hdrop,
          List.takeWhile_append_dropWhile]
  · dsimp only at h
    split at h
    · simp at h
    · simp only [Option.some.injEq, Prod.mk.injEq] at h
      obtain ⟨rfl, rfl, rfl⟩ := h
      have hname := (trimEndBy_isPrefix isBlank _).trans <|
        List.takeWhile_prefix (l := content) fun c => c != ':' && c != '`'
      exact ⟨[], [], (List.prefix_iff_eq_append.1 hname).symm, rfl⟩

/-- **The parts of a value are its text**, with what encloses the name. -/
theorem exists_of_ofContent? {content : List Char} {v : ValueItem}
    (h : ofContent? content = some v) :
    ∃ lead gap, content = lead ++ (v.name ++ (gap ++ ':' :: v.description)) ∧
      v.nameStart = lead.length ∧ content.drop v.descriptionStart = v.description := by
  simp only [ofContent?, Option.bind_eq_bind, Option.bind_eq_some_iff, Prod.exists] at h
  obtain ⟨start, name, rest, hname, description, hrest, hv⟩ := h
  obtain rfl := Option.some.inj hv
  obtain ⟨lead, close, hcontent, hstart⟩ := name?_eq_append hname
  obtain ⟨gap, hgap⟩ := afterColon?_eq_append hrest
  refine ⟨lead, close ++ gap, by rw [hcontent, hgap, List.append_assoc], hstart, ?_⟩
  have hsuffix : description <:+ content :=
    ⟨lead ++ (name ++ (close ++ (gap ++ [':']))), by simp [hcontent, hgap]⟩
  exact (List.suffix_iff_eq_drop.1 hsuffix).symm

end ValueItem
end ValueDocs.Directive
