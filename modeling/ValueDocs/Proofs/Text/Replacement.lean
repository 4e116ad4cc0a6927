import ValueDocs.Proofs.Text.LineBreaks

/-!
# Proofs/Text/Replacement — a text with other characters in the place of some

The characters between two offsets give way to others, and the rest of the text stays, every line
break with it.  An offset is counted from the start of a line (`lineStart`), so when one line says
something else the other lines are the same (`exists_lines_replace`).
-/

namespace ValueDocs.Text

/-- The number of characters before a line of a text; the lines are counted from zero. -/
def lineStart : Nat → List Char → Nat
  | 0, _ => 0
  | _ + 1, [] => 0
  | k + 1, '\r' :: '\n' :: s => lineStart k s + 2
  | k + 1, c :: s => if isLineBreak c then lineStart k s + 1 else lineStart (k + 1) s + 1

/-- The text with others in the place of the characters between two offsets. -/
def replaceBetween (start stop : Nat) (new s : List Char) : List Char :=
  s.take start ++ new ++ s.drop stop

/-! ## The start of a line -/

@[simp] theorem lineStart_zero (s : List Char) : lineStart 0 s = 0 := by
  rcases s with _ | ⟨c, s⟩ <;> rw [lineStart]

theorem lineStart_succ_pair (k : Nat) (s : List Char) :
    lineStart (k + 1) ('\r' :: '\n' :: s) = lineStart k s + 2 := by
  rw [lineStart]

theorem lineStart_succ_break (k : Nat) {c : Char} {s : List Char} (h : isLineBreak c = true)
    (hs : c = '\r' → ∀ t, s ≠ '\n' :: t) : lineStart (k + 1) (c :: s) = lineStart k s + 1 := by
  rw [lineStart, if_pos h]
  exact fun t hc ht => hs hc t ht

theorem lineStart_succ_cons (k : Nat) {c : Char} (s : List Char) (h : isLineBreak c = false) :
    lineStart (k + 1) (c :: s) = lineStart (k + 1) s + 1 := by
  have hr : c ≠ '\r' := by rintro rfl; simp [isLineBreak] at h
  rw [lineStart, if_neg (by simp [h])]
  exact fun t hc => absurd hc hr

/-- A text without a break goes on the first line of what follows it. -/
theorem lines_append_of_isUnbroken {l : List Char} (hl : IsUnbroken l) (hne : l ≠ [])
    (s : List Char) : lines (l ++ s) = (l ++ (lines s).headD []) :: (lines s).tail := by
  induction l with
  | nil => exact absurd rfl hne
  | cons c l ih =>
    rw [List.cons_append, lines_cons_of_not_isLineBreak (hl c (List.mem_cons_self ..))]
    rcases l with _ | ⟨d, l⟩
    · rfl
    · rw [ih hl.of_cons (List.cons_ne_nil d l)]
      rfl

/-- A text does not come to start with a line feed when a part of it gives way to a line. -/
theorem ne_newline_cons_of_replaced {before old new after : List Char} (hnew : IsUnbroken new)
    (hne : new ≠ []) (h : ∀ t, before ++ (old ++ after) ≠ '\n' :: t) (t : List Char) :
    before ++ (new ++ after) ≠ '\n' :: t := by
  rcases before with _ | ⟨c, before⟩
  · obtain ⟨d, new, rfl⟩ := List.exists_cons_of_ne_nil hne
    intro heq
    rw [List.nil_append, List.cons_append] at heq
    exact hnew.newline_notMem ((List.cons_eq_cons.1 heq).1 ▸ List.mem_cons_self ..)
  · intro heq
    exact h _ (by rw [List.cons_append, (List.cons_eq_cons.1 heq).1])

/-- **One line of a text can say something else** while the others stay as they are. -/
theorem exists_lines_replace {s line : List Char} {above below : List (List Char)}
    (h : lines s = above ++ line :: below) :
    ∃ before after, s = before ++ (line ++ after) ∧ lineStart above.length s = before.length ∧
      ∀ new, IsUnbroken new → new ≠ [] →
        lines (before ++ (new ++ after)) = above ++ new :: below := by
  fun_induction lines s generalizing line above below with
  | case1 => simp at h
  | case2 s ih =>
    rcases above with _ | ⟨first, above⟩
    · obtain ⟨rfl, rfl⟩ := List.cons_eq_cons.1 h
      refine ⟨[], '\r' :: '\n' :: s, rfl, lineStart_zero _, fun new hnew hne => ?_⟩
      rw [List.nil_append, lines_append_of_isUnbroken hnew hne, lines]
      simp
    · obtain ⟨rfl, hs⟩ := List.cons_eq_cons.1 h
      obtain ⟨before, after, hcut, hlen, hlines⟩ := ih hs
      refine ⟨'\r' :: '\n' :: before, after, by simp [hcut], ?_, fun new hnew hne => ?_⟩
      · rw [List.length_cons, lineStart_succ_pair, hlen]
        rfl
      · rw [List.cons_append, List.cons_append, lines, hlines new hnew hne]
        rfl
  | case3 c s hpair hc ih =>
    have hfeed : c = '\r' → ∀ t, s ≠ '\n' :: t := fun hr t ht => hpair t hr ht
    rcases above with _ | ⟨first, above⟩
    · obtain ⟨rfl, rfl⟩ := List.cons_eq_cons.1 h
      refine ⟨[], c :: s, rfl, lineStart_zero _, fun new hnew hne => ?_⟩
      rw [List.nil_append, lines_append_of_isUnbroken hnew hne,
        lines_cons_of_isLineBreak hc hfeed]
      simp
    · obtain ⟨rfl, hs⟩ := List.cons_eq_cons.1 h
      obtain ⟨before, after, hcut, hlen, hlines⟩ := ih hs
      refine ⟨c :: before, after, by simp [hcut], ?_, fun new hnew hne => ?_⟩
      · rw [List.length_cons, lineStart_succ_break _ hc hfeed, hlen]
        rfl
      · rw [List.cons_append, lines_cons_of_isLineBreak hc fun hr =>
          ne_newline_cons_of_replaced hnew hne fun t => hcut ▸ hfeed hr t, hlines new hnew hne]
        rfl
  | case4 c s hpair hc hs ih =>
    rcases above with _ | ⟨first, above⟩
    · obtain ⟨rfl, rfl⟩ := List.cons_eq_cons.1 h
      refine ⟨[], s, rfl, lineStart_zero _, fun new hnew hne => ?_⟩
      rw [List.nil_append, lines_append_of_isUnbroken hnew hne, hs]
      simp
    · simp at h
  | case5 c s hpair hc first rest hs ih =>
    rw [Bool.not_eq_true] at hc
    rcases above with _ | ⟨a, above⟩
    · obtain ⟨rfl, rfl⟩ := List.cons_eq_cons.1 h
      obtain ⟨before, after, hcut, hlen, hlines⟩ := ih (show lines s = [] ++ first :: _ from hs)
      obtain rfl := List.eq_nil_of_length_eq_zero (hlen.symm.trans (lineStart_zero s))
      exact ⟨[], after, by simp [hcut], lineStart_zero _, hlines⟩
    · obtain ⟨rfl, rfl⟩ := List.cons_eq_cons.1 h
      obtain ⟨before, after, hcut, hlen, hlines⟩ :=
        ih (show lines s = (first :: above) ++ _ :: _ from hs)
      refine ⟨c :: before, after, by simp [hcut], ?_, fun new hnew hne => ?_⟩
      · rw [List.length_cons, List.length_cons, lineStart_succ_cons _ _ hc, ← hlen]
        rfl
      · rw [List.cons_append, lines_cons_of_not_isLineBreak hc, hlines new hnew hne]
        rfl

end ValueDocs.Text
