import ValueDocs.Proofs.Directive.Blocks
import ValueDocs.Proofs.Directive.Descriptions
import ValueDocs.Proofs.Directive.Passage

/-!
# Proofs/Directive/LineNumbers — the line numbers of a value

All ranges of a value lie on its line and in the region below it (`isWithin_of_mem_ranges`).  The
scan uses the number of its first line for nothing but these ranges, so lines that stand further
down on a page document the same values, further down (`documented_further_down`).
-/

namespace ValueDocs

/-- The ranges of a value: its own lines, its name, its description and its prose. -/
def DocumentedValue.ranges (v : DocumentedValue) : List Range :=
  v.range.toList ++ v.nameRange.toList ++ v.descriptionRange.toList ++ v.prose.filterMap (·.range)

/-- Whether a range is on lines from a first to a last one. -/
structure Range.IsWithin (r : Range) (first last : Int) : Prop where
  first_le : first ≤ r.lower.line
  lower_le_upper : r.lower.line ≤ r.upper.line
  upper_le : r.upper.line ≤ last

theorem Range.IsWithin.mono {r : Range} {first first' last last' : Int}
    (h : r.IsWithin first last) (hfirst : first' ≤ first) (hlast : last ≤ last') :
    r.IsWithin first' last' :=
  ⟨Int.le_trans hfirst h.first_le, h.lower_le_upper, Int.le_trans h.upper_le hlast⟩

/-- Whether a range covers something of a line. -/
def Range.Covers (r : Range) (n : Int) : Prop := r.lower.line ≤ n ∧ n ≤ r.upper.line

namespace Directive

open Text

/-! ## The lines of a value -/

theorem length_continuation_le (region : List Line) :
    (continuation region).length ≤ region.length :=
  (List.takeWhile_prefix continuesItem).length_le

theorem line_of_mem_descriptionLines {n column : Int} {item : ValueItem} {continued : List Line} :
    ∀ d ∈ descriptionLines n column item continued,
      n ≤ d.line ∧ d.line ≤ n + continued.length := by
  refine forall_mem_descriptionLines.2 ⟨fun _ => by dsimp only; omega, fun k l hl => ?_⟩
  have := (List.getElem?_eq_some_iff.1 hl).1
  dsimp only
  omega

theorem isWithin_of_mem_blocks {n : Int} {ls : List Line} {b : Block} (hb : b ∈ blocks n ls)
    {r : Range} (hr : b.range = some r) : r.IsWithin n (n + ls.length - 1) := by
  obtain ⟨above, first, more, below, hls, rfl, -⟩ := exists_of_mem_blocks hb
  obtain rfl := Option.some.inj hr
  have := congrArg List.length hls
  simp only [List.length_append, List.length_cons] at this
  constructor <;> dsimp only <;> omega

/-- **The ranges of a value are on its line and in the region below it.** -/
theorem isWithin_of_mem_ranges (origin : Origin) (s : Sighting) :
    ∀ r ∈ (valueOf origin s).ranges, r.IsWithin s.number (s.number + s.region.length) := by
  have hle := length_continuation_le s.region
  simp only [DocumentedValue.ranges, List.mem_append, Option.mem_toList, List.mem_filterMap]
  rintro r (((hr | hr) | hr) | ⟨b, hb, hr⟩)
  · obtain rfl := Option.some.inj hr
    constructor <;> dsimp only <;> omega
  · obtain rfl := Option.some.inj hr
    constructor <;> dsimp only [Range.onLine] <;> omega
  · obtain ⟨d, hd, rfl⟩ := Option.map_eq_some_iff.1 hr
    have := line_of_mem_descriptionLines d (List.mem_of_mem_head? hd)
    constructor <;> dsimp only <;> omega
  · have hwithin := isWithin_of_mem_blocks hb hr
    rw [List.length_drop] at hwithin
    refine hwithin.mono (by omega) ?_
    push_cast [hle]
    omega

/-! ## Further down -/

/-- A sighting `k` lines further down. -/
def Sighting.down (k : Int) (s : Sighting) : Sighting := { s with number := s.number + k }

variable {vocabulary : Vocabulary}

theorem readNested_add (child : Option Nat) (n k : Int) (line : Line) (below : List Line) :
    readNested child (n + k) line below = { readNested child n line below with
      found := (readNested child n line below).found.map (·.down k) } := by
  unfold readNested
  split
  · rfl
  · split
    · rfl
    · simp [Option.map_map, Function.comp_def, Sighting.down]

theorem blockSightings_add (child : Option Nat) (n k : Int) (ls : List Line) :
    blockSightings child (n + k) ls = (blockSightings child n ls).map (·.down k) := by
  fun_induction blockSightings child n ls with
  | case1 => simp [blockSightings]
  | case2 child n line below r ih =>
    have hnumber : n + k + 1 + r.skipped = n + 1 + r.skipped + k := by omega
    rw [blockSightings, readNested_add, List.map_append, ← ih, Option.toList_map]
    simp only [r, hnumber]

theorem readItem_add (n k : Int) (line : Line) (item : ListItem) (below : List Line) :
    readItem vocabulary (n + k) line item below =
      { readItem vocabulary n line item below with
        found := (readItem vocabulary n line item below).found.map (·.down k) } := by
  have hbelow : n + k + 1 = n + 1 + k := by omega
  unfold readItem
  dsimp only
  split
  · rw [hbelow, blockSightings_add]
  · split
    · rfl
    · simp [Option.toList_map, Function.comp_def, Sighting.down]

theorem readLine_add (above : Above) (n k : Int) (line : Line) (below : List Line) :
    readLine vocabulary above (n + k) line below = { readLine vocabulary above n line below with
      found := (readLine vocabulary above n line below).found.map (·.down k) } := by
  rcases readLine_cases vocabulary above line with ⟨item, -, hitem⟩ | ⟨next, -, hnext⟩
  · rw [hitem, hitem, readItem_add]
  · rw [hnext, hnext, List.map_nil]

/-- **The scan finds the same further down.** -/
theorem scan_add (above : Above) (n k : Int) (ls : List Line) :
    scan vocabulary above (n + k) ls = (scan vocabulary above n ls).map (·.down k) := by
  fun_induction scan vocabulary above n ls with
  | case1 => simp [scan]
  | case2 above n line below r ih =>
    have hnumber : n + k + 1 + r.skipped = n + 1 + r.skipped + k := by omega
    rw [scan, readLine_add, List.map_append, ← ih]
    simp only [r, hnumber]

theorem blockOf_add (n k : Int) (first : Line) (more : List Line) :
    blockOf (n + k) first more = { blockOf n first more with
      range := (blockOf n first more).range.map (·.down k) } := by
  have hlast : n + k + more.length = n + more.length + k := by omega
  rw [blockOf, hlast]
  rfl

theorem blocks_add (n k : Int) (ls : List Line) :
    blocks (n + k) ls = (blocks n ls).map fun b => { b with range := b.range.map (·.down k) } := by
  fun_induction blocks n ls with
  | case1 => simp [blocks]
  | case2 n line below hf rest ih =>
    have hrest : n + k + 1 + rest.1.length = n + 1 + rest.1.length + k := by omega
    rw [blocks, if_pos hf, List.map_cons, ← ih, ← hrest, ← blockOf_add]
  | case3 n line below hf ih =>
    have hbelow : n + k + 1 = n + 1 + k := by omega
    rw [blocks, if_neg hf, hbelow, ih]

theorem descriptionLines_add (n k column : Int) (item : ValueItem) (continued : List Line) :
    descriptionLines (n + k) column item continued =
      (descriptionLines n column item continued).map fun d => { d with line := d.line + k } := by
  unfold descriptionLines
  dsimp only
  rw [List.map_append]
  congr 1
  · split <;> rfl
  · refine List.ext_getElem? fun i => ?_
    have hline : n + k + 1 + i = n + 1 + i + k := by omega
    simp [hline, Function.comp_def]

/-- **A value that is stated further down tells the same, further down.** -/
theorem valueOf_down (origin : Origin) (k : Int) (s : Sighting) :
    valueOf origin (s.down k) = (valueOf origin s).down k := by
  have hstop : s.number + k + (continuation s.region).length =
      s.number + (continuation s.region).length + k := by omega
  have hprose : s.number + k + 1 + (continuation s.region).length =
      s.number + 1 + (continuation s.region).length + k := by omega
  simp only [valueOf, Sighting.down, descriptionLines_add, List.map_map, List.head?_map, hstop,
    hprose, blocks_add, DocumentedValue.down, Option.map_map, Option.map_some]
  rfl

/-- **Lines that stand further down document the same values, further down.** -/
theorem documented_further_down (origin : Origin) (above : Above) (n k : Int) (ls : List Line) :
    (scan vocabulary above (n + k) ls).map (valueOf origin) =
      ((scan vocabulary above n ls).map (valueOf origin)).map (·.down k) := by
  rw [scan_add, List.map_map, List.map_map]
  exact List.map_congr_left fun s _ => valueOf_down origin k s

/-- A vocabulary of one keyword for each form. -/
def oneKeyword : Vocabulary := ⟨keywords ["PossibleValues"], keywords ["PossibleValue"]⟩

end Directive
end ValueDocs
