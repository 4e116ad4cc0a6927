import ValueDocs.Directive.Prose
import ValueDocs.Proofs.Directive.Regions
import ValueDocs.Proofs.Text.LineBreaks

/-!
# Proofs/Directive/Blocks — a block and the lines it was made of

Every block of a region is made of consecutive lines of it (`exists_of_mem_blocks`), and the place
of an offset in the block is on the line that holds it, at the column where the character stands
(`place_blockOf`).  The last line says something, so the end of the text is the end of the range.
-/

namespace ValueDocs

open Text

/-- An offset is placed by the lines and the characters before it. -/
theorem Block.positionOf?_of_append {b : Block} {r : Range} {head tail : List Char}
    (hr : b.range = some r) (h : b.text.toList = head ++ tail) :
    b.positionOf? head.length = some
      ⟨r.lower.line + row head, (b.columns[row head]?).getD 1 + column head⟩ := by
  have hbefore : before head.length (head ++ tail) = head := by
    simp [before, show ¬ ((head.length : Int) < 0) by omega]
  simp only [positionOf?, hr, Option.bind_eq_bind, Option.bind_some, h, hbefore, pure,
    Option.some.injEq, Position.mk.injEq]
  refine ⟨rfl, ?_⟩
  change _ + (head.length : Int) - (head.length - column head) = _
  rw [← row]
  omega

namespace Directive

/-! ## The lines of a block -/

theorem splitAfter_of_append {α : Type} (p : α → Bool) (xs : List α) :
    (splitAfter p xs).2 = [] ∨ ∃ ys x, (splitAfter p xs).1 = ys ++ [x] ∧ p x = true := by
  induction xs with
  | nil => exact .inl rfl
  | cons x xs ih =>
    rw [splitAfter]
    split
    · next hx => exact .inr ⟨[], x, rfl, hx⟩
    · rcases ih with h | ⟨ys, y, hys, hy⟩
      · exact .inl h
      · exact .inr ⟨x :: ys, y, by simp [hys], hy⟩

theorem isFilled_of_closes {run : List Char} {line : Line} (hrun : run ≠ [])
    (h : closes run line = true) : isFilled line = true := by
  rw [isFilled_iff]
  intro hnil
  rw [closes, hnil, List.isPrefixOf_iff_prefix, List.prefix_nil] at h
  exact hrun h

theorem length_of_fence? {line : Line} {run : List Char} (h : fence? line = some run) :
    3 ≤ run.length := by
  simp only [fence?, Option.ite_none_right_eq_some, Option.some.injEq] at h
  obtain ⟨hlen, hrun⟩ := h
  rwa [hrun] at hlen

theorem ne_nil_of_fence? {line : Line} {run : List Char} (h : fence? line = some run) :
    run ≠ [] := by
  rintro rfl
  simpa using length_of_fence? h

/-- A block ends with a line that says something if its region does: a fence ends with the line
that closes it or with the region, another block before a blank line. -/
theorem endsFilled_blockRest (first : Line) {below : List Line} (h : EndsFilled below) :
    EndsFilled (blockRest first below).1 := by
  unfold blockRest
  split
  · next run hrun =>
    rcases splitAfter_of_append (closes run) below with hleft | ⟨ys, x, hys, hx⟩
    · have := splitAfter_append (closes run) below
      rw [hleft, List.append_nil] at this
      rwa [this]
    · rw [hys]
      intro l hl
      simp only [List.getLast?_append, List.getLast?_singleton, Option.some_or, Option.mem_def,
        Option.some.injEq] at hl
      exact hl ▸ isFilled_of_closes (ne_nil_of_fence? hrun) hx
  · refine EndsFilled.of_forall fun l hl => ?_
    have hstays := List.mem_takeWhile_imp hl
    simp only [endsBlock, Bool.not_eq_true', Bool.or_eq_false_iff, Bool.not_eq_false'] at hstays
    exact hstays.1.1

/-- **A block is made of consecutive lines.** -/
theorem exists_of_mem_blocks {n : Int} {ls : List Line} {b : Block} (h : b ∈ blocks n ls) :
    ∃ above first more below, ls = above ++ ((first :: more) ++ below) ∧
      b = blockOf (n + above.length) first more ∧ isFilled first = true ∧
        (EndsFilled ls → EndsFilled (first :: more)) := by
  induction n, ls using blocks.induct with
  | case1 => simp [blocks] at h
  | case2 n line below hf rest ih =>
    have hrest := blockRest_append line below
    rw [blocks, if_pos hf, List.mem_cons] at h
    rcases h with rfl | h
    · refine ⟨[], line, rest.1, rest.2, by simp [rest, hrest], by simp [rest], hf, fun hend => ?_⟩
      exact (endsFilled_blockRest line hend.tail).cons fun _ => hf
    · obtain ⟨above, first, more, below', hls, hb, hfirst, hend⟩ := ih h
      refine ⟨line :: rest.1 ++ above, first, more, below', ?_, ?_, hfirst, fun h => hend ?_⟩
      · rw [List.append_assoc, ← hls, List.cons_append, hrest]
      · rw [hb, List.length_append, List.length_cons]
        congr 1
        omega
      · refine EndsFilled.of_append (line :: rest.1) ?_
        rwa [List.cons_append, hrest]
  | case3 n line below hf ih =>
    rw [blocks, if_neg hf] at h
    obtain ⟨above, first, more, below', hls, hb, hfirst, hend⟩ := ih h
    refine ⟨line :: above, first, more, below', by rw [hls]; rfl, ?_, hfirst,
      fun h => hend h.tail⟩
    rw [hb, List.length_cons]
    congr 1
    omega

/-! ## Places in a block -/

theorem removedIndent_le (kind : BlockKind) (base : Nat) (line : Line) :
    removedIndent kind base line ≤ indent line := by
  unfold removedIndent
  split
  · exact le_rfl
  · exact min_le_left ..

/-- Removing indentation from the front does not change where a line ends. -/
theorem length_trimEnd_drop {line : Line} (hf : isFilled line = true) {k : Nat}
    (hk : k ≤ indent line) : k + (trimEnd (line.drop k)).length = (trimEnd line).length := by
  have hne : trimEnd (line.drop k) ≠ [] := by
    rw [ne_eq, trimEndBy_eq_nil_iff, List.all_eq_true]
    intro hall
    refine isFilled_iff.1 hf (trim_eq_nil_iff.2 (isBlankLine_iff.2 fun c hc => ?_))
    rw [← List.take_append_drop k line] at hc
    rcases List.mem_append.1 hc with hc | hc
    · have hsub : line.take k <+: line.takeWhile isIndent :=
        List.prefix_of_prefix_length_le (List.take_prefix k line) (List.takeWhile_prefix isIndent)
          ((List.length_take_le k line).trans hk)
      exact isBlank_of_isIndent (List.mem_takeWhile_imp (hsub.subset hc))
    · exact hall c hc
  have hcut : trimEnd line = line.take k ++ trimEnd (line.drop k) := by
    rw [← trimEndBy_append hne, List.take_append_drop]
  rw [hcut, List.length_append, List.length_take_of_le (hk.trans (indent_le_length line))]

/-- How much a block leaves out of a line at the front; `first` is the line that starts it. -/
abbrev leftOut (first line : Line) : Nat := removedIndent (blockKind first) (indent first) line

/-- What a block shows of a line. -/
def shown (first line : Line) : List Char := trimEnd (line.drop (leftOut first line))

theorem shown_isPrefix (first line : Line) : shown first line <+: line.drop (leftOut first line) :=
  trimEndBy_isPrefix isBlank _

theorem newline_notMem_shown {line : Line} (hu : IsUnbroken line) (first : Line) :
    '\n' ∉ shown first line :=
  (hu.of_subset fun _ hc =>
    List.mem_of_mem_drop ((shown_isPrefix first line).subset hc)).newline_notMem

theorem leftOut_add_length_shown {line : Line} (hf : isFilled line = true) (first : Line) :
    leftOut first line + (shown first line).length = (trimEnd line).length :=
  length_trimEnd_drop hf (removedIndent_le ..)

/-- The text of a block, line by line. -/
theorem text_blockOf (n : Int) (first : Line) (more : List Line) :
    (blockOf n first more).text.toList = unlines ((first :: more).map (shown first)) := by
  rw [blockOf, String.toList_ofList]
  rfl

theorem columns_blockOf (n : Int) (first : Line) (more : List Line) :
    (blockOf n first more).columns =
      (first :: more).map fun l => (leftOut first l : Int) + 1 := rfl

/-- **The place of an offset is on the line that shows it**, where the rest of what is shown of the
line follows. -/
theorem place_blockOf {n : Int} {first : Line} {more : List Line} {head tail : List Char}
    (hu : ∀ l ∈ first :: more, IsUnbroken l)
    (h : (blockOf n first more).text.toList = head ++ tail) :
    ∃ l rest, (first :: more)[row head]? = some l ∧
      (blockOf n first more).positionOf? head.length =
        some ⟨n + row head, ((leftOut first l + column head : Nat) : Int) + 1⟩ ∧
      column head ≤ (shown first l).length ∧
      tail = (shown first l).drop (column head) ++ rest ∧
      (rest = [] ∧ row head = more.length ∨ ∃ t, rest = '\n' :: t) := by
  have hpos := Block.positionOf?_of_append (b := blockOf n first more) rfl h
  rw [text_blockOf] at h
  have hn : ∀ p ∈ (first :: more).map (shown first), '\n' ∉ p := by
    intro p hp
    obtain ⟨l, hl, rfl⟩ := List.mem_map.1 hp
    exact newline_notMem_shown (hu l hl) first
  obtain ⟨p, rest, hp, hcol, htail, hend⟩ := exists_getElem?_row hn (by simp) h
  rw [List.getElem?_map] at hp
  obtain ⟨l, hl, rfl⟩ := Option.map_eq_some_iff.1 hp
  refine ⟨l, rest, hl, ?_, hcol, htail, hend.imp_left fun h => ⟨h.1, by simpa using h.2⟩⟩
  rw [hpos, columns_blockOf, List.getElem?_map, hl, Option.map_some, Option.getD_some]
  congr 2
  push_cast
  omega

end Directive
end ValueDocs
