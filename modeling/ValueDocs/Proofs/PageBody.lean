import ValueDocs.Proofs.Directive.LineNumbers
import ValueDocs.Proofs.PagePlaces

/-!
# Proofs/PageBody — the values of a page are those of its body

A page is cut in two below its title, and the scan reads the body, counting on from the offset.  It
finds there what it would find on the whole page with the lines up to the title emptied
(`Page.documentedValues_untitled`): empty lines say nothing, neither those that stand for the title
(`scan_blank_append`) nor the one that the body may lack at its end (`scan_lines`).
-/

namespace ValueDocs

open Text

namespace Directive

variable {vocabulary : Vocabulary} {above : Above} {n : Int} {ls blanks : List Line}

/-! ## Blank lines -/

theorem scan_of_forall_blank (hblank : ∀ l ∈ blanks, isFilled l = false) :
    scan vocabulary above n blanks = [] := by
  refine List.eq_nil_iff_forall_not_mem.2 fun s hs => ?_
  obtain ⟨⟨upper, lower, rfl, -, -⟩, hstated⟩ := isFoundIn_of_mem_scan hs
  have hl := hblank s.line (List.mem_append_right _ (List.mem_cons_self ..))
  rw [hstated.isFilled] at hl
  exact absurd hl (by decide)

/-- Blank lines at the end say nothing. -/
theorem scan_append_blank (hblank : ∀ l ∈ blanks, isFilled l = false) :
    scan vocabulary above n (ls ++ blanks) = scan vocabulary above n ls := by
  have hends : EndAlike [] blanks :=
    .of_forall_eq_zero (fun _ => rfl) fun _ => regionLength_of_forall_blank hblank
  have hpassage := (passage_end vocabulary above n ls).congr (List.append_nil _).symm hends
  have hscan := hpassage.scan_eq
  dsimp only at hscan
  rw [hscan, scan_of_forall_blank hblank, List.append_nil]

/-- Blank lines at the start are counted and say nothing. -/
theorem scan_blank_append (hblank : ∀ l ∈ blanks, isFilled l = false) :
    scan vocabulary .nothing n (blanks ++ ls) = scan vocabulary .nothing (n + blanks.length) ls :=
  (Passage.of_forall_readLine_eq (fun l hl n below => by simp [readLine, hblank l hl]) n
    ls).scan_eq

/-- The scan does not see whether the last line is missing because it is empty. -/
theorem scan_lines {text : List Char} (h : HasLines text ls) :
    scan vocabulary above n (lines text) = scan vocabulary above n ls := by
  rcases h with rfl | rfl
  · rfl
  · exact (scan_append_blank (by simp [isFilled, isBlankLine])).symm

end Directive

namespace Page

open Directive

/-- The lines of a page, with those up to its title emptied. -/
def untitledLines (text : List Char) : List Line :=
  List.replicate (ofText text).offset [] ++ (lines text).drop (ofText text).offset

theorem hasLines_unlines_untitledLines (text : List Char) :
    HasLines (unlines (untitledLines text)) (untitledLines text) := by
  refine hasLines_unlines fun l hl => ?_
  rcases List.mem_append.1 hl with hl | hl
  · obtain rfl := List.eq_of_mem_replicate hl
    exact fun _ hc => absurd hc List.not_mem_nil
  · exact isUnbroken_of_mem_lines (List.mem_of_mem_drop hl)

theorem scan_body (vocabulary : Vocabulary) (text : List Char) :
    scan vocabulary .nothing ((ofText text).offset + 1) (lines (ofText text).body) =
      scan vocabulary .nothing (0 + 1) (untitledLines text) := by
  have hblank : ∀ l ∈ List.replicate (ofText text).offset ([] : Line), isFilled l = false :=
    fun l hl => by rw [List.eq_of_mem_replicate hl]; rfl
  rw [scan_lines (hasLines_body text), untitledLines, scan_blank_append hblank,
    List.length_replicate, Int.add_comm, Int.zero_add]

/-- **The values of a page are those of its body.**  They are what a text documents that has the
lines of the page but for those up to the title, which are empty there, whatever breaks its lines.
So their line numbers are those of the page, from below the title on. -/
theorem documentedValues_untitled (vocabulary : Vocabulary) (origin : Origin) (text : List Char) :
    documentedValues vocabulary origin (ofText text).offset (ofText text).body =
        documentedValues vocabulary origin 0 (unlines (untitledLines text)) ∧
      (∀ untitled, HasLines untitled (untitledLines text) →
        documentedValues vocabulary origin (ofText text).offset (ofText text).body =
          documentedValues vocabulary origin 0 untitled) ∧
      ∀ v ∈ documentedValues vocabulary origin (ofText text).offset (ofText text).body,
        ∀ r ∈ v.ranges, r.IsWithin ((ofText text).offset + 1) (lines text).length := by
  have hsame : ∀ untitled, HasLines untitled (untitledLines text) →
      documentedValues vocabulary origin (ofText text).offset (ofText text).body =
        documentedValues vocabulary origin 0 untitled := fun untitled h => by
    rw [documentedValues, documentedValues, scan_body, scan_lines h]
  refine ⟨hsame _ (hasLines_unlines_untitledLines text), hsame, fun v hv r hr => ?_⟩
  obtain ⟨s, hs, rfl⟩ := List.mem_map.1 hv
  have hbounds := (isFoundIn_of_mem_scan hs).1.bounds
  have hlen := (hasLines_body text).isPrefix.length_le
  rw [List.length_drop] at hlen
  exact (isWithin_of_mem_ranges origin s r hr).mono hbounds.1 (by omega)

/-- A page with front matter and many kinds of line breaks, whose last line is empty. -/
def mixedBreaksPage : List Char :=
  "---\r\nkey: 1\u2028---\x0c\r# ``Month``\u0085- PossibleValue May: Fifth.\u2029\u001c  Warm.\n\n".toList

/-- The same text with the lines up to the title emptied. -/
def mixedBreaksUntitled : List Char :=
  "\r\n\u2028\x0c\r\u0085- PossibleValue May: Fifth.\u2029\u001c  Warm.\n\n".toList

/-- The month of the page is on its sixth line, and its prose on the eighth. -/
theorem documentedValues_untitled_mixedBreaks :
    (ofText mixedBreaksPage).title = some "Month" ∧
      HasLines mixedBreaksUntitled (untitledLines mixedBreaksPage) ∧
      documentedValues oneKeyword {} (ofText mixedBreaksPage).offset (ofText mixedBreaksPage).body =
        documentedValues oneKeyword {} 0 mixedBreaksUntitled ∧
      (documentedValues oneKeyword {} 0 mixedBreaksUntitled).map
          (fun v => (v.name, v.ranges.map (·.lower.line))) = [("May", [6, 6, 6, 8])] := by
  have hlines : HasLines mixedBreaksUntitled (untitledLines mixedBreaksPage) :=
    .inl (by decide +kernel)
  exact ⟨by decide +kernel, hlines,
    (documentedValues_untitled oneKeyword {} mixedBreaksPage).2.1 _ hlines, by decide +kernel⟩

end Page
end ValueDocs
