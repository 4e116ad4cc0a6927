import Mathlib.Data.List.Infix
import ValueDocs.Proofs.Directive.Blocks
import ValueDocs.Proofs.PagePlaces
import ValueDocs.Proofs.References

/-!
# Proofs/ProsePlaces — nested prose is where its places say

A block of prose was cut out of a page line by line, at a column of its own on each line.  Its
places undo the cut: what the block holds at an offset, the page holds at the place of the offset
(`from?_positionOf?`), and a reference that leads nowhere is reported exactly where it is written
(`prose_stands_on_page`).
-/

namespace ValueDocs

open Text Directive

/-! ## One block -/

section Block

variable {text : List Char} {n : Int} {first : Line} {more : List Line}

/-- **The page goes on at the place of an offset as the block does**, to the end of the line. -/
theorem from?_positionOf? (hp : Page.Holds text n (first :: more)) {head s tail : List Char}
    (h : (blockOf n first more).text.toList = head ++ (s ++ tail)) (hs : '\n' ∉ s) :
    ∃ p rest, (blockOf n first more).positionOf? head.length = some p ∧
      Page.from? text p = some (s ++ rest) ∧
      (blockOf n first more).positionOf? ((head.length + s.length : Nat) : Int) =
        some { p with column := p.column + s.length } := by
  obtain ⟨l, rest, hl, hpos, -, htail, hend⟩ := place_blockOf (fun _ hl => hp.isUnbroken hl) h
  have hshown : s <+: (shown first l).drop (column head) := by
    rcases List.append_eq_append_iff.1 htail with ⟨t, ht, -⟩ | ⟨t, ht, hrest⟩
    · exact ⟨t, ht.symm⟩
    · rcases t with _ | ⟨c, t⟩
      · exact ⟨[], by simpa using ht⟩
      · -- more than the rest of the line would have to hold a line feed
        rcases hend with ⟨rfl, -⟩ | ⟨u, rfl⟩
        · simp at hrest
        · rw [← (List.cons_eq_cons.1 hrest).1] at ht
          exact absurd (by simp [ht]) hs
  obtain ⟨rest', hrest'⟩ :=
    hshown.trans (List.IsPrefix.drop (shown_isPrefix first l) (column head))
  rw [List.drop_drop] at hrest'
  refine ⟨_, rest', hpos, ?_, ?_⟩
  · rw [Page.from?_eq_some (hp _ _ hl), hrest']
  · have hthere := Block.positionOf?_of_append (b := blockOf n first more) rfl
      (h.trans (List.append_assoc head s tail).symm)
    have hhere := Block.positionOf?_of_append (b := blockOf n first more) rfl h
    rw [row_append_of_notMem _ hs, column_append_of_notMem _ hs, List.length_append] at hthere
    rw [hpos, Option.some.injEq, Position.mk.injEq] at hhere
    rw [hthere, hhere.1, hhere.2]
    congr 2
    push_cast
    omega

/-- The place of the first character is the start of the range. -/
theorem positionOf?_zero : (blockOf n first more).positionOf? 0 =
    (blockOf n first more).range.map (·.lower) := by
  have h : (blockOf n first more).positionOf? ([] : List Char).length = _ :=
    Block.positionOf?_of_append rfl rfl
  simpa [blockOf] using h

/-- **The place after the last character is the end of the range**, since the last line says
something. -/
theorem positionOf?_length (hp : Page.Holds text n (first :: more))
    (hend : EndsFilled (first :: more)) :
    (blockOf n first more).positionOf? (blockOf n first more).text.toList.length =
      (blockOf n first more).range.map (·.upper) := by
  obtain ⟨l, rest, hl, hpos, hcol, htail, hlast⟩ := place_blockOf
    (fun _ hl => hp.isUnbroken hl)
    (List.append_nil (blockOf n first more).text.toList).symm
  obtain ⟨hdrop, rfl⟩ := List.append_eq_nil_iff.1 htail.symm
  have hrow : row (blockOf n first more).text.toList = more.length := by simpa using hlast
  have hgetLast : (first :: more).getLast? = some l := by
    rw [List.getLast?_eq_getElem?, ← hl, hrow]
    simp
  have hcolumn : column (blockOf n first more).text.toList = (shown first l).length :=
    hcol.antisymm (List.drop_eq_nil_iff.1 hdrop)
  rw [hpos, hrow, hcolumn, leftOut_add_length_shown (hend l hgetLast)]
  simp only [blockOf, Option.map_some, endColumn, List.getLastD_eq_getLast?, hgetLast,
    Option.getD_some]

end Block

/-! ## The prose of a value -/

/-- Each block of prose is made of consecutive lines of the page, the last of which says
something. -/
theorem exists_of_mem_prose {text : List Char} {origin : Origin} {s : Sighting}
    (hs : s.StandsIn ((Page.ofText text).offset + 1) (lines (Page.ofText text).body)) {b : Block}
    (hb : b ∈ (valueOf origin s).prose) :
    ∃ n first more, b = blockOf n first more ∧ Page.Holds text n (first :: more) ∧
      EndsFilled (first :: more) := by
  have hregion := (Page.holds_sighting hs).tail
  obtain ⟨-, below, -, -, hr⟩ := hs
  obtain ⟨above, first, more, rest, hls, rfl, -, hend⟩ := exists_of_mem_blocks hb
  have hcut := continuation_append_drop s.region
  rw [← hcut] at hregion
  have hprose := hregion.right
  rw [hls] at hprose
  refine ⟨_, first, more, rfl, hprose.right.left, hend ?_⟩
  refine EndsFilled.of_append (continuation s.region) ?_
  rw [hcut, hr]
  exact endsFilled_region _ _

/-- Whether a block is on a page where its places say. -/
structure Block.StandsOn (text : List Char) (b : Block) : Prop where
  /-- The page has each character of the block at the place of its offset. -/
  character : ∀ (o : Nat) (c : Char), b.text.toList[o]? = some c → c ≠ '\n' →
    ∃ p, b.positionOf? o = some p ∧ Page.char? text p = some c
  /-- The range runs from the first character to just after the last. -/
  range : ∃ r, b.range = some r ∧ b.positionOf? 0 = some r.lower ∧
    b.positionOf? b.text.toList.length = some r.upper
  /-- What is reported of a reference is the stretch of one line where it is written. -/
  reference : ∀ (resolver : Resolver) (contextPath : String) (source : Option String),
    ∀ d ∈ (Resolution.resolveBlock resolver contextPath source b).2,
      d.kind = .unresolvedReference ∧ ∃ ref ∈ Reference.find b.text,
        resolver ref contextPath = none ∧ ∃ r, d.range = some r ∧ r.lower.line = r.upper.line ∧
          Page.slice? text r = some ((b.text.toList.take ref.stop).drop ref.start)

theorem standsOn_blockOf {text : List Char} {n : Int} {first : Line} {more : List Line}
    (hp : Page.Holds text n (first :: more)) (hend : EndsFilled (first :: more)) :
    (blockOf n first more).StandsOn text where
  character o c ho hc := by
    obtain ⟨hlt, hget⟩ := List.getElem?_eq_some_iff.1 ho
    have hcut : (blockOf n first more).text.toList =
        (blockOf n first more).text.toList.take o ++
          ([c] ++ (blockOf n first more).text.toList.drop (o + 1)) := by
      rw [← hget, List.singleton_append, ← List.drop_eq_getElem_cons hlt, List.take_append_drop]
    obtain ⟨p, rest, hpos, hfrom, -⟩ := from?_positionOf? hp hcut (by simpa using Ne.symm hc)
    rw [List.length_take_of_le hlt.le] at hpos
    exact ⟨p, hpos, by simp [Page.char?, hfrom]⟩
  range := ⟨_, rfl, positionOf?_zero, positionOf?_length hp hend⟩
  reference resolver contextPath source d hd := by
    rw [Resolution.resolveBlock_snd] at hd
    obtain ⟨ref, href, rfl⟩ := List.mem_map.1 hd
    obtain ⟨hfind, hnone⟩ := Resolution.mem_find_of_mem_unresolvedIn href
    obtain ⟨head, w, tail, htext, hstart, hstop, hw⟩ := Reference.exists_of_mem_find hfind
    obtain ⟨p, rest, hlower, hfrom, hupper⟩ := from?_positionOf? hp htext hw
    refine ⟨rfl, ref, hfind, hnone, ⟨p, { p with column := p.column + w.length }⟩, ?_, rfl, ?_⟩
    · rw [← hstart] at hlower
      rw [← hstop] at hupper
      simp only [Resolution.unresolved, Resolution.referenceRange, hlower, hupper]
    · rw [Page.slice?_of_append hfrom, htext, hstart, hstop]
      simp [List.take_append]

/-- **Prose is on the page where its places say.**  Each character of a block of prose that is not
between two of its lines stands at its place, the range of the block is from its first character to
after its last, and a reference that leads nowhere is reported where it is written. -/
theorem prose_stands_on_page (vocabulary : Vocabulary) (origin : Origin) (text : List Char)
    {v : DocumentedValue} (hv : v ∈ documentedValues vocabulary origin (Page.ofText text).offset
      (Page.ofText text).body) {b : Block} (hb : b ∈ v.prose) : b.StandsOn text := by
  obtain ⟨s, hs, rfl⟩ := List.mem_map.1 hv
  obtain ⟨n, first, more, rfl, hp, hend⟩ := exists_of_mem_prose (isFoundIn_of_mem_scan hs).1 hb
  exact standsOn_blockOf hp hend

/-- A page whose value has an oddly indented paragraph and a fence that nothing closes. -/
def unclosedFencePage : List Char :=
  unlines (["# ``Month``", "- PossibleValues:", "  - May: Fifth.", "", "    See", "   \t``Day``.",
    "      ```", "    a", "", "        b "].map String.toList)

/-- Prose may end in a fence that is still open. -/
theorem prose_stands_on_unclosedFencePage :
    ∃ v ∈ documentedValues ⟨keywords ["PossibleValues"], keywords ["PossibleValue"]⟩ {}
        (Page.ofText unclosedFencePage).offset (Page.ofText unclosedFencePage).body,
      ∃ b ∈ v.prose, b.text = "```\na\n\n  b" ∧ b.StandsOn unclosedFencePage := by
  have h : ∃ v ∈ documentedValues ⟨keywords ["PossibleValues"], keywords ["PossibleValue"]⟩ {}
        (Page.ofText unclosedFencePage).offset (Page.ofText unclosedFencePage).body,
      ∃ b ∈ v.prose, b.text = "```\na\n\n  b" := by
    decide +kernel
  obtain ⟨v, hv, b, hb, htext⟩ := h
  exact ⟨v, hv, b, hb, htext, prose_stands_on_page _ _ _ hv hb⟩

end ValueDocs
