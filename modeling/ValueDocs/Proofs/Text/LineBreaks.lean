import ValueDocs.Proofs.Text.Trim
import ValueDocs.Text.Lines

/-!
# Proofs/Text/LineBreaks — joining lines and cutting them again

Lines that hold no break are found again once joined, up to a last line that is empty
(`hasLines_unlines`).  A text that is joined from lines has each of its characters in one of
them; `row` and `column` say which, and where in it (`exists_getElem?_row`).
-/

namespace ValueDocs.Text

/-- Whether a text holds no line break. -/
def IsUnbroken (s : List Char) : Prop := ∀ c ∈ s, isLineBreak c = false

instance (s : List Char) : Decidable (IsUnbroken s) := List.decidableBAll _ s

theorem IsUnbroken.of_cons {c : Char} {s : List Char} (h : IsUnbroken (c :: s)) : IsUnbroken s :=
  fun d hd => h d (List.mem_cons_of_mem _ hd)

theorem IsUnbroken.cons {c : Char} {s : List Char} (hc : isLineBreak c = false)
    (hs : IsUnbroken s) : IsUnbroken (c :: s) :=
  fun d hd => (List.mem_cons.1 hd).elim (fun h => h ▸ hc) (hs d)

theorem IsUnbroken.of_subset {s t : List Char} (h : IsUnbroken t) (hst : s ⊆ t) : IsUnbroken s :=
  fun c hc => h c (hst hc)

theorem IsUnbroken.append {s t : List Char} (hs : IsUnbroken s) (ht : IsUnbroken t) :
    IsUnbroken (s ++ t) :=
  fun c hc => (List.mem_append.1 hc).elim (hs c) (ht c)

theorem IsUnbroken.newline_notMem {s : List Char} (h : IsUnbroken s) : '\n' ∉ s :=
  fun hn => by simpa [isLineBreak] using h '\n' hn

theorem isUnbroken_of_mem_lines {s line : List Char} (h : line ∈ lines s) : IsUnbroken line :=
  not_isLineBreak_of_mem_lines line h

/-! ## Cutting what was joined -/

@[simp] theorem unlines_nil : unlines [] = [] := rfl

@[simp] theorem unlines_singleton (l : List Char) : unlines [l] = l :=
  List.intercalate_singleton

theorem unlines_cons_cons (l l' : List Char) (ls : List (List Char)) :
    unlines (l :: l' :: ls) = l ++ '\n' :: unlines (l' :: ls) := by
  simp [unlines, List.intercalate_cons_cons]

/-- A character that is no break opens the first line. -/
theorem lines_cons_of_not_isLineBreak {c : Char} (hc : isLineBreak c = false) (s : List Char) :
    lines (c :: s) = (c :: (lines s).headD []) :: (lines s).tail := by
  have hr : c ≠ '\r' := by rintro rfl; simp [isLineBreak] at hc
  rw [lines]
  · simp only [hc, Bool.false_eq_true, if_false]
    cases lines s <;> rfl
  · exact fun _ h _ => hr h

theorem lines_append_newline {l : List Char} (hl : IsUnbroken l) (s : List Char) :
    lines (l ++ '\n' :: s) = l :: lines s := by
  induction l with
  | nil =>
    exact lines_cons_of_isLineBreak rfl (fun h => absurd h (by decide))
  | cons c l ih =>
    rw [List.cons_append, lines_cons_of_not_isLineBreak (hl c (List.mem_cons_self ..)),
      ih hl.of_cons]
    rfl

theorem lines_of_isUnbroken {l : List Char} (hl : IsUnbroken l) (hne : l ≠ []) :
    lines l = [l] := by
  induction l with
  | nil => exact absurd rfl hne
  | cons c l ih =>
    rw [lines_cons_of_not_isLineBreak (hl c (List.mem_cons_self ..))]
    rcases l with _ | ⟨d, l⟩
    · simp
    · simp [ih hl.of_cons]

/-- Whether a text has some lines, the last of which it may lack if that is empty. -/
def HasLines (s : List Char) (ls : List (List Char)) : Prop := lines s = ls ∨ lines s ++ [[]] = ls

theorem HasLines.isPrefix {s : List Char} {ls : List (List Char)} (h : HasLines s ls) :
    lines s <+: ls := by
  rcases h with rfl | rfl
  · exact List.prefix_rfl
  · exact List.prefix_append ..

theorem HasLines.cons {l s : List Char} {ls : List (List Char)} (hl : IsUnbroken l)
    (h : HasLines s ls) : HasLines (l ++ '\n' :: s) (l :: ls) := by
  rw [HasLines, lines_append_newline hl]
  exact h.imp (congrArg (l :: ·)) (congrArg (l :: ·))

/-- **Lines that are joined are found again**, but for a last one that is empty. -/
theorem hasLines_unlines :
    ∀ {ls : List (List Char)}, (∀ l ∈ ls, IsUnbroken l) → HasLines (unlines ls) ls
  | [], _ => .inl lines_nil
  | [l], h => by
    rw [unlines_singleton]
    rcases eq_or_ne l [] with rfl | hne
    · exact .inr (by rw [lines_nil, List.nil_append])
    · exact .inl (lines_of_isUnbroken (h l (List.mem_singleton_self l)) hne)
  | l :: l' :: ls, h => by
    rw [unlines_cons_cons]
    exact .cons (h l (List.mem_cons_self ..))
      (hasLines_unlines fun m hm => h m (List.mem_cons_of_mem _ hm))

/-- Lines of which the last is not empty are found again. -/
theorem lines_unlines {ls : List (List Char)} (h : ∀ l ∈ ls, IsUnbroken l)
    (hlast : ls.getLast? ≠ some []) : lines (unlines ls) = ls := by
  rcases hasLines_unlines h with heq | heq
  · exact heq
  · exact absurd (by rw [← heq, List.getLast?_concat]) hlast

/-! ## The line and the column of an offset

What stands before an offset has as many line feeds as there are lines above, and the characters
after the last of them are those to the left. -/

/-- The number of lines above the end of a text. -/
def row (head : List Char) : Nat := head.count '\n'

/-- The number of characters on the last line of a text. -/
def column (head : List Char) : Nat := (head.reverse.takeWhile (· ≠ '\n')).length

@[simp] theorem row_nil : row [] = 0 := rfl

@[simp] theorem column_nil : column [] = 0 := rfl

theorem row_of_notMem {s : List Char} (hs : '\n' ∉ s) : row s = 0 := List.count_eq_zero.2 hs

theorem column_of_notMem {s : List Char} (hs : '\n' ∉ s) : column s = s.length := by
  have hall : s.reverse.takeWhile (· ≠ '\n') = s.reverse :=
    List.takeWhile_eq_self_iff.2 fun c hc => by
      simpa using fun h : c = '\n' => hs (h ▸ List.mem_reverse.1 hc)
  rw [column, hall, List.length_reverse]

/-- Text without a line feed moves to the right on its line. -/
theorem row_append_of_notMem (head : List Char) {s : List Char} (hs : '\n' ∉ s) :
    row (head ++ s) = row head := by
  rw [row, List.count_append, List.count_eq_zero.2 hs, Nat.add_zero, row]

theorem column_append_of_notMem (head : List Char) {s : List Char} (hs : '\n' ∉ s) :
    column (head ++ s) = column head + s.length := by
  rw [column, List.reverse_append, List.takeWhile_append_of_pos, List.length_append,
    List.length_reverse, Nat.add_comm, column]
  exact fun c hc => by simpa using fun h : c = '\n' => hs (h ▸ List.mem_reverse.1 hc)

theorem row_append_newline (s head : List Char) (hs : '\n' ∉ s) :
    row (s ++ '\n' :: head) = row head + 1 := by
  simp [row, List.count_eq_zero.2 hs]

theorem column_append_newline (s head : List Char) :
    column (s ++ '\n' :: head) = column head := by
  rw [column, List.reverse_append, List.reverse_cons, List.append_assoc, List.takeWhile_append]
  split
  · next h => rw [List.cons_append, List.takeWhile_cons_of_neg (by decide), List.append_nil, ← h,
      column]
  · rfl

/-- **Each place of joined lines lies in one of them.**  What follows the place is the rest of its
line, and then nothing if the line is the last, or a line feed. -/
theorem exists_getElem?_row :
    ∀ {ls : List (List Char)} {head tail : List Char}, (∀ l ∈ ls, '\n' ∉ l) → ls ≠ [] →
      unlines ls = head ++ tail → ∃ l more, ls[row head]? = some l ∧ column head ≤ l.length ∧
        tail = l.drop (column head) ++ more ∧
        (more = [] ∧ row head + 1 = ls.length ∨ ∃ m, more = '\n' :: m)
  | [], _, _, _, hne, _ => absurd rfl hne
  | [l], head, tail, hn, _, h => by
    rw [unlines_singleton] at h
    have hh : '\n' ∉ head := fun hc => hn l (List.mem_singleton_self l) (by simp [h, hc])
    refine ⟨l, [], ?_, ?_, ?_, .inl ⟨rfl, ?_⟩⟩
    · simp [row_of_notMem hh]
    · simp [column_of_notMem hh, h]
    · simp [column_of_notMem hh, h]
    · simp [row_of_notMem hh]
  | l :: l' :: ls, head, tail, hn, _, h => by
    have hl : '\n' ∉ l := hn l (List.mem_cons_self ..)
    rw [unlines_cons_cons] at h
    rcases List.append_eq_append_iff.1 h with ⟨s, hhead, htail⟩ | ⟨s, hl', htail⟩
    · -- the place is after the first line: its line feed, or in the lines below
      rcases s with _ | ⟨c, s⟩
      · rw [List.append_nil] at hhead
        refine ⟨l, tail, ?_, ?_, ?_, .inr ⟨_, htail.symm⟩⟩
        · simp [hhead, row_of_notMem hl]
        · simp [hhead, column_of_notMem hl]
        · simp [hhead, column_of_notMem hl]
      · obtain ⟨rfl, hs⟩ := List.cons_eq_cons.1 htail
        obtain ⟨m, more, hm, hcol, ht, hend⟩ := exists_getElem?_row
          (fun m hm => hn m (List.mem_cons_of_mem _ hm)) (List.cons_ne_nil _ _) hs
        rw [hhead, row_append_newline _ _ hl, column_append_newline]
        refine ⟨m, more, by simpa using hm, hcol, ht, ?_⟩
        simpa using hend
    · have hh : '\n' ∉ head := fun hc => hl (hl' ▸ List.mem_append_left _ hc)
      refine ⟨l, '\n' :: unlines (l' :: ls), ?_, ?_, ?_, .inr ⟨_, rfl⟩⟩
      · simp [row_of_notMem hh]
      · simp [column_of_notMem hh, hl']
      · simp [column_of_notMem hh, hl', htail]

end ValueDocs.Text
