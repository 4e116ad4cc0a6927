import ValueDocs.Directive.Scan
import ValueDocs.Proofs.Directive.Regions

/-!
# Proofs/Directive/Sightings — where the scan finds its values

Every value the scan finds stands on a line of the page, under that line's number, with the region
that its marker has on the page (`isFoundIn_of_mem_scan`).  The region is that of the whole page also
for a value of a block, whose scan sees the region of the label alone.
-/

namespace ValueDocs.Directive

open Text

namespace Sighting

/-- Whether a sighting is on one of the lines from the line `n` on. -/
def StandsIn (s : Sighting) (n : Int) (ls : List Line) : Prop :=
  ∃ above below, ls = above ++ s.line :: below ∧ s.number = n + above.length ∧
    s.region = Directive.region (indent s.line) below

/-- Whether a sighting is what its line states at the end.  The width of what stands before is right
when only spaces and tabs stand in front of the line. -/
def IsStated (s : Sighting) : Prop :=
  ∃ item stated, ListItem.ofLine? s.line = some item ∧
    ValueItem.ofContent? stated = some s.item ∧ stated <:+ s.line ∧
    (HasPlainIndent s.line → s.line.drop s.column = stated)

theorem IsStated.isFilled {s : Sighting} (h : s.IsStated) : Directive.isFilled s.line = true :=
  let ⟨_, _, hitem, _⟩ := h
  ListItem.isFilled_of_ofLine? hitem

theorem StandsIn.of_drop {s : Sighting} {n : Int} {k : Nat} {ls : List Line}
    (h : s.StandsIn (n + k) (ls.drop k)) : s.StandsIn n ls := by
  obtain ⟨above, below, hls, hn, hr⟩ := h
  have hk : k < ls.length := by
    have := congrArg List.length hls
    simp only [List.length_drop, List.length_append, List.length_cons] at this
    omega
  refine ⟨ls.take k ++ above, below, ?_, ?_, hr⟩
  · rw [List.append_assoc, ← hls, List.take_append_drop]
  · rw [hn, List.length_append, List.length_take_of_le hk.le]
    omega

theorem StandsIn.cons {s : Sighting} {n : Int} {line : Line} {ls : List Line}
    (h : s.StandsIn (n + 1) ls) : s.StandsIn n (line :: ls) :=
  StandsIn.of_drop (k := 1) (by simpa using h)

/-- A line in the region of a shallower marker has its own region in the lines below it all. -/
theorem StandsIn.of_region {s : Sighting} {n : Int} {marker : Nat} {ls : List Line}
    (h : s.StandsIn n (Directive.region marker ls)) (hf : Directive.isFilled s.line = true) :
    s.StandsIn n ls := by
  obtain ⟨above, below, hls, hn, hr⟩ := h
  have hdeep : marker < indent s.line :=
    lt_indent_of_mem_region s.line (by rw [hls]; simp) hf
  refine ⟨above, below ++ ls.drop (regionLength marker ls), ?_, hn, ?_⟩
  · rw [← List.cons_append, ← List.append_assoc, ← hls, region_append_drop]
  · rw [hr, region_append (regionLength_eq_zero_mono hdeep.le (regionLength_drop marker ls))]

/-- Whether a sighting is on one of the lines and is what its line states. -/
def IsFoundIn (s : Sighting) (n : Int) (ls : List Line) : Prop := s.StandsIn n ls ∧ s.IsStated

end Sighting

/-! ## The block form -/

theorem isFoundIn_of_readNested {child : Option Nat} {n : Int} {line : Line} {below : List Line}
    {s : Sighting} (h : (readNested child n line below).found = some s) :
    s.IsFoundIn n (line :: below) := by
  unfold readNested at h
  split at h
  · simp at h
  · split at h
    · simp at h
    · next item hitem =>
      obtain ⟨value, hvalue, rfl⟩ := Option.map_eq_some_iff.1 h
      refine ⟨⟨[], below, rfl, by simp, rfl⟩, item, item.content, hitem, hvalue,
        ListItem.content_suffix hitem, fun hp => ?_⟩
      rw [← ListItem.drop_contentColumn hitem, ListItem.contentColumn,
        ← (ListItem.indent_eq_length_lead hitem).2 hp]

theorem isFoundIn_of_mem_blockSightings {child : Option Nat} {n : Int} {ls : List Line}
    {s : Sighting} (h : s ∈ blockSightings child n ls) : s.IsFoundIn n ls := by
  induction child, n, ls using blockSightings.induct with
  | case1 => simp [blockSightings] at h
  | case2 child n line below r ih =>
    rw [blockSightings, List.mem_append, Option.mem_toList] at h
    rcases h with h | h
    · exact isFoundIn_of_readNested h
    · exact ⟨(ih h).1.of_drop.cons, (ih h).2⟩

/-! ## The scan -/

theorem isFoundIn_of_readItem {vocabulary : Vocabulary} {n : Int} {line : Line} {item : ListItem}
    {below : List Line} (hitem : ListItem.ofLine? line = some item) {s : Sighting}
    (h : s ∈ (readItem vocabulary n line item below).found) : s.IsFoundIn n (line :: below) := by
  unfold readItem at h
  dsimp only at h
  split at h
  · have hs := isFoundIn_of_mem_blockSightings h
    exact ⟨(hs.1.of_region hs.2.isFilled).cons, hs.2⟩
  · split at h
    · simp at h
    · next stated hstated =>
      obtain ⟨value, hvalue, rfl⟩ := Option.map_eq_some_iff.1 (Option.mem_toList.1 h)
      have hsuffix := suffix_of_afterIntroduction? hstated
      refine ⟨⟨[], below, rfl, by simp, rfl⟩, item, stated, hitem, hvalue,
        hsuffix.trans (ListItem.content_suffix hitem), fun _ => ?_⟩
      rw [← List.drop_drop, ListItem.drop_contentColumn hitem]
      exact (List.suffix_iff_eq_drop.1 hsuffix).symm

/-- A line that introduces a value is a list item. -/
theorem exists_readItem_of_mem_readLine {vocabulary : Vocabulary} {above : Above} {n : Int}
    {line : Line} {below : List Line} {s : Sighting}
    (h : s ∈ (readLine vocabulary above n line below).found) :
    ∃ item, ListItem.ofLine? line = some item ∧
      readLine vocabulary above n line below = readItem vocabulary n line item below := by
  unfold readLine at h ⊢
  split at h
  · simp at h
  · split at h
    · simp at h
    · dsimp only at h ⊢
      split at h
      · simp at h
      · simp at h
      · next item _ hitem =>
        split at h
        · simp_all
        · simp at h

/-- **Every value that the scan finds stands on the page**, on a list item that states it. -/
theorem isFoundIn_of_mem_scan {vocabulary : Vocabulary} {above : Above} {n : Int} {ls : List Line}
    {s : Sighting} (h : s ∈ scan vocabulary above n ls) : s.IsFoundIn n ls := by
  fun_induction scan vocabulary above n ls with
  | case1 => simp at h
  | case2 above n line below r ih =>
    rw [List.mem_append] at h
    rcases h with h | h
    · obtain ⟨item, hitem, hread⟩ := exists_readItem_of_mem_readLine h
      simp only [r, hread] at h
      exact isFoundIn_of_readItem hitem h
    · exact ⟨(ih h).1.of_drop.cons, (ih h).2⟩

end ValueDocs.Directive
