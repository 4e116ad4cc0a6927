import ValueDocs.Proofs.Directive.LineNumbers

/-!
# Proofs/Sections — a line of plain text parts a page in two

A line that starts with text, and with neither a marker nor a fence, ends every region above it
and nests nothing below it.  Unless a fence is open there, the values of a page are those of the lines
above and, further down, those of the lines below (`documentedValues_parted`): what is written in
one part changes nothing in the other.
-/

namespace ValueDocs.Directive

open Text

/-- Whether a line starts with text, and with neither a marker nor a fence. -/
structure IsPlainText (line : Line) : Prop where
  starts : ∃ c rest, line = c :: rest ∧ isBlank c = false
  not_isItem : isItem line = false
  not_isFence : isFence line = false

namespace IsPlainText

variable {vocabulary : Vocabulary} {line : Line}

theorem isFilled (h : IsPlainText line) : Directive.isFilled line = true := by
  obtain ⟨c, rest, rfl, hc⟩ := h.starts
  simp [Directive.isFilled, isBlankLine, hc]

theorem indent_eq (h : IsPlainText line) : indent line = 0 := by
  obtain ⟨c, rest, rfl, hc⟩ := h.starts
  have hindent : isIndent c ≠ true := fun hi => by simp [isBlank_of_isIndent hi] at hc
  rw [indent, List.takeWhile_cons_of_neg hindent, List.length_nil]

/-- No region goes on across a line of plain text. -/
theorem endAlike_nil (h : IsPlainText line) (below : List Line) : EndAlike [] (line :: below) := by
  refine .of_forall_eq_zero (fun _ => rfl) fun marker => ?_
  simp [regionLength, h.isFilled, h.indent_eq]

/-- Nothing is above the lines below a line of plain text. -/
theorem readLine_eq (h : IsPlainText line) {above : Above} (hfence : ∀ run, above ≠ .fence run)
    (hitem : ∀ column, above = .item column → 0 < column) (n : Int) (below : List Line) :
    readLine vocabulary above n line below = { above := .nothing } := by
  have hnests : above.nests line = false := by
    cases above with
    | item column => simpa [Above.nests, h.indent_eq] using (hitem column rfl).ne'
    | _ => rfl
  have hnoItem : ListItem.ofLine? line = none := by simpa [isItem] using h.not_isItem
  have hnoFence : fence? line = none := by simpa [isFence] using h.not_isFence
  unfold readLine
  split
  · next run => exact absurd rfl (hfence run)
  · simp [h.isFilled, hnests, hnoItem, hnoFence]

end IsPlainText

/-- **A line of plain text parts a page in two.**  Unless a fence is open at the end of the lines
above it, the values of the page are the values of these lines, and after them the values of the
lines below as they are found on their own, as many lines further down as stand before them. -/
theorem documentedValues_parted (vocabulary : Vocabulary) (origin : Origin) (offset : Int)
    {body above below : List Char} {line : Line}
    (hbody : lines body = lines above ++ line :: lines below) (hline : IsPlainText line)
    (hopen : ∀ run, aboveEnd vocabulary .nothing (offset + 1) (lines above) ≠ .fence run) :
    documentedValues vocabulary origin offset body =
      documentedValues vocabulary origin offset above ++
        (documentedValues vocabulary origin offset below).map (·.down ((lines above).length + 1)) := by
  have hpassage := (passage_end vocabulary .nothing (offset + 1) (lines above)).congr
    (List.append_nil _).symm (hline.endAlike_nil (lines below))
  have hscan := hpassage.scan_eq
  have hnumber : offset + 1 + (lines above).length + 1 + ((0 : Nat) : Int) =
      offset + 1 + ((lines above).length + 1) := by omega
  dsimp only at hscan
  rw [scan, hline.readLine_eq hopen (column_pos_of_aboveEnd fun _ h => by simp at h),
    List.nil_append, List.drop_zero, hnumber, ← hbody] at hscan
  rw [documentedValues, hscan, List.map_append,
    documented_further_down origin .nothing (offset + 1) ((lines above).length + 1)]
  rfl

/-! ## Two months with a heading between them -/

/-- The part of a page with the first month, whose prose is followed by blank lines. -/
def mayPart : List Char := "- PossibleValues:\r\n  - May: Fifth.\r\n\r\n    Warm.\r\n \r\n\r\n".toList

/-- The part of a page with the second month. -/
def junePart : List Char := "\n- PossibleValue `June`: Sixth.".toList

/-- The two months of a page are found as they are on their own. -/
theorem documentedValues_parted_months :
    lines (mayPart ++ "## Summer\n".toList ++ junePart) =
        lines mayPart ++ "## Summer".toList :: lines junePart ∧
      IsPlainText "## Summer".toList ∧
      (∀ run, aboveEnd oneKeyword .nothing 3 (lines mayPart) ≠ .fence run) ∧
      documentedValues oneKeyword {} 2 (mayPart ++ "## Summer\n".toList ++ junePart) =
        documentedValues oneKeyword {} 2 mayPart ++
          (documentedValues oneKeyword {} 2 junePart).map (·.down 7) ∧
      (documentedValues oneKeyword {} 2 (mayPart ++ "## Summer\n".toList ++ junePart)).map
          (fun v => (v.name, v.range.map (·.lower.line))) =
        [("May", some 4), ("June", some 11)] := by
  have hbody : lines (mayPart ++ "## Summer\n".toList ++ junePart) =
      lines mayPart ++ "## Summer".toList :: lines junePart := by decide +kernel
  have hline : IsPlainText "## Summer".toList :=
    ⟨⟨'#', "# Summer".toList, by decide, by decide⟩, by decide +kernel, by decide +kernel⟩
  have hend : aboveEnd oneKeyword .nothing 3 (lines mayPart) = .item 2 := by decide +kernel
  have hopen : ∀ run, aboveEnd oneKeyword .nothing 3 (lines mayPart) ≠ .fence run :=
    fun run h => by simp [hend] at h
  have hparted := documentedValues_parted oneKeyword {} 2 hbody hline hopen
  refine ⟨hbody, hline, hopen, hparted, ?_⟩
  rw [hparted]
  decide +kernel

end ValueDocs.Directive
