import Mathlib.Data.List.Pairwise
import ValueDocs.Proofs.Directive.LineNumbers

/-!
# Proofs/ItemSpans — every line of an item is in one place of its value

A value takes up spans of lines: its own lines, then the blocks of its prose.  Spans follow one
another down the page, within a value (`Directive.pairwise_spans`) and from value to value
(`Directive.pairwise_scan`), and each line of an item that says something is in one of its spans
(`Directive.exists_covers`).  So nothing that is written in an item is lost or read twice.
-/

namespace ValueDocs

/-- Whether a range ends on a line above the one that another starts on. -/
def Range.IsAbove (r s : Range) : Prop := r.upper.line < s.lower.line

/-- The spans of a value: its own lines, and each block of its prose. -/
def DocumentedValue.spans (v : DocumentedValue) : List Range :=
  v.range.toList ++ v.prose.filterMap (·.range)

/-- Whether the line `k` of some lines belongs to the item whose marker is on the line `m`: what is
below the marker, down to that line, is blank or indented deeper. -/
def Directive.InItem (ls : List Directive.Line) (m k : Nat) : Prop :=
  m ≤ k ∧ ∀ marker, ls[m]? = some marker → ∀ j, m < j → j ≤ k → ∀ l, ls[j]? = some l →
    Directive.isFilled l = true → Directive.indent marker < Directive.indent l

open Directive in
/-- Whether the spans of a value are a partition of the item whose marker is on the line `m` of some
lines, the first of which has the number `n`. -/
structure DocumentedValue.Partitions (v : DocumentedValue) (n : Int) (ls : List Line) (m : Nat) :
    Prop where
  isItem : ls[m]?.map isItem = some true
  starts : v.range.map (·.lower.line) = some (n + m)
  /-- The value's own lines have a span, and so has each block. -/
  located : v.spans.map some = v.range :: v.prose.map (·.range)
  lower_le_upper : ∀ r ∈ v.spans, r.lower.line ≤ r.upper.line
  /-- Each span ends above the next one. -/
  pairwise : v.spans.Pairwise Range.IsAbove
  /-- Each line of the item that says something is in one span. -/
  covered : ∀ k line, ls[k]? = some line → isFilled line = true → InItem ls m k →
    ∃! r, r ∈ v.spans ∧ r.Covers (n + k)
  /-- The spans cover nothing but lines of the item. -/
  within : ∀ r ∈ v.spans, ∀ i, r.Covers i →
    ∃ k : Nat, i = n + k ∧ k < ls.length ∧ InItem ls m k

namespace Directive

open Text

/-! ## The blocks of a region -/

section Blocks

variable {n : Int} {ls : List Line}

theorem isSome_range_of_mem_blocks {b : Block} (h : b ∈ blocks n ls) : b.range.isSome = true := by
  obtain ⟨_, _, _, _, _, rfl, -⟩ := exists_of_mem_blocks h
  rfl

/-- The place of a block. -/
theorem exists_range_blockOf (n : Int) (first : Line) (more : List Line) :
    ∃ r, (blockOf n first more).range = some r ∧ r.lower.line = n ∧
      r.upper.line = n + more.length :=
  ⟨_, rfl, rfl, rfl⟩

/-- **Each block ends above the next one.** -/
theorem pairwise_blocks (n : Int) (ls : List Line) :
    ((blocks n ls).filterMap (·.range)).Pairwise Range.IsAbove := by
  fun_induction blocks n ls with
  | case1 => exact .nil
  | case2 n line below hf rest ih =>
    obtain ⟨r, hrange, -, hupper⟩ := exists_range_blockOf n line rest.1
    rw [List.filterMap_cons_some hrange, List.pairwise_cons]
    refine ⟨fun t ht => ?_, ih⟩
    obtain ⟨b, hb, ht⟩ := List.mem_filterMap.1 ht
    have hfirst := (isWithin_of_mem_blocks hb ht).first_le
    rw [Range.IsAbove, hupper]
    omega
  | case3 n line below hf ih => exact ih

/-- **A line that says something is in a block.** -/
theorem exists_block_covers (n : Int) (ls : List Line) : ∀ (k : Nat) (l : Line),
    ls[k]? = some l → isFilled l = true →
      ∃ r ∈ (blocks n ls).filterMap (·.range), r.Covers (n + k) := by
  fun_induction blocks n ls with
  | case1 => simp
  | case2 n line below _ rest ih =>
    intro k l hl hf
    obtain ⟨r, hrange, hlower, hupper⟩ := exists_range_blockOf n line rest.1
    rw [List.filterMap_cons_some hrange]
    by_cases hk : k ≤ rest.1.length
    · refine ⟨r, List.mem_cons_self .., ?_⟩
      rw [Range.Covers, hlower, hupper]
      omega
    · obtain ⟨j, rfl⟩ := Nat.exists_eq_add_of_lt (Nat.not_le.1 hk)
      have hbelow : rest.1 ++ rest.2 = below := blockRest_append line below
      rw [← hbelow, List.getElem?_cons_succ, List.getElem?_append_right (by omega),
        Nat.add_sub_cancel_left] at hl
      obtain ⟨t, ht, hcovers⟩ := ih j l hl hf
      refine ⟨t, List.mem_cons_of_mem _ ht, ?_⟩
      have hnumber : n + 1 + (rest.1.length : Int) + j =
          n + ((rest.1.length + j + 1 : Nat) : Int) := by omega
      rwa [hnumber] at hcovers
  | case3 n line below hblank ih =>
    intro k l hl hf
    rcases k with _ | k
    · obtain rfl := Option.some.inj hl
      exact absurd hf hblank
    · obtain ⟨r, hr, hcovers⟩ := ih k l hl hf
      refine ⟨r, hr, ?_⟩
      have hnumber : n + 1 + (k : Int) = n + ((k + 1 : Nat) : Int) := by omega
      rwa [hnumber] at hcovers

end Blocks

/-! ## The spans of a value -/

section Spans

variable (origin : Origin) (s : Sighting)

/-- The place of a value's own lines. -/
theorem exists_range_valueOf : ∃ r, (valueOf origin s).range = some r ∧
    r.lower.line = s.number ∧ r.upper.line = s.number + (continuation s.region).length :=
  ⟨_, rfl, rfl, rfl⟩

theorem map_some_spans : (valueOf origin s).spans.map some =
    (valueOf origin s).range :: (valueOf origin s).prose.map (·.range) := by
  have hprose : ((valueOf origin s).prose.filterMap (·.range)).map some =
      (valueOf origin s).prose.map (·.range) := by
    rw [List.map_filterMap_some_eq_filter_map_isSome, List.filter_eq_self]
    refine List.forall_mem_map.2 fun b hb => ?_
    exact isSome_range_of_mem_blocks hb
  rw [DocumentedValue.spans, List.map_append, hprose]
  rfl

/-- The spans of a value are on its line and in the region below it. -/
theorem isWithin_of_mem_spans : ∀ r ∈ (valueOf origin s).spans,
    r.IsWithin s.number (s.number + s.region.length) := by
  intro r hr
  refine isWithin_of_mem_ranges origin s r ?_
  simp only [DocumentedValue.spans, DocumentedValue.ranges, List.mem_append] at hr ⊢
  tauto

/-- **Each span of a value ends above the next one.** -/
theorem pairwise_spans : (valueOf origin s).spans.Pairwise Range.IsAbove := by
  obtain ⟨r, hrange, -, hupper⟩ := exists_range_valueOf origin s
  rw [DocumentedValue.spans, hrange, Option.toList_some, List.singleton_append, List.pairwise_cons]
  refine ⟨fun t ht => ?_, pairwise_blocks _ _⟩
  obtain ⟨b, hb, ht⟩ := List.mem_filterMap.1 ht
  have hfirst := (isWithin_of_mem_blocks hb ht).first_le
  rw [Range.IsAbove, hupper]
  omega

/-- **A line of an item that says something is in a span of its value.** -/
theorem exists_covers {k : Nat} {l : Line} (hl : (s.line :: s.region)[k]? = some l)
    (hf : isFilled l = true) : ∃ r ∈ (valueOf origin s).spans, r.Covers (s.number + k) := by
  obtain ⟨r, hrange, hlower, hupper⟩ := exists_range_valueOf origin s
  by_cases hk : k ≤ (continuation s.region).length
  · refine ⟨r, by simp [DocumentedValue.spans, hrange], ?_⟩
    rw [Range.Covers, hlower, hupper]
    omega
  · obtain ⟨j, rfl⟩ := Nat.exists_eq_add_of_lt (Nat.not_le.1 hk)
    have hprose : (s.region.drop (continuation s.region).length)[j]? = some l := by
      rw [List.getElem?_drop]
      exact hl
    obtain ⟨t, ht, hcovers⟩ :=
      exists_block_covers (s.number + 1 + (continuation s.region).length) _ j l hprose hf
    refine ⟨t, List.mem_append_right _ ht, ?_⟩
    have hnumber : s.number + 1 + ((continuation s.region).length : Int) + j =
        s.number + (((continuation s.region).length + j + 1 : Nat) : Int) := by omega
    rwa [hnumber] at hcovers

end Spans

/-! ## The lines of an item -/

/-- **A region is what is nested below a marker**: it goes down to a line that says something
exactly if all down to that line is blank or indented deeper. -/
theorem lt_regionLength_iff {marker k : Nat} {below : List Line} {line : Line}
    (hline : below[k]? = some line) (hf : isFilled line = true) :
    k < regionLength marker below ↔
      ∀ j ≤ k, ∀ l, below[j]? = some l → isFilled l = true → marker < indent l := by
  constructor
  · intro hk j hj l hl hfilled
    have hmem : l ∈ region marker below := by
      refine List.mem_of_getElem? (i := j) ?_
      rw [region, List.getElem?_take_of_lt (hj.trans_lt hk), hl]
    exact lt_indent_of_mem_region l hmem hfilled
  · intro h
    induction below generalizing k with
    | nil => simp at hline
    | cons first below ih =>
      have hbelow : ∀ i, k = i + 1 → i < regionLength marker below := by
        rintro i rfl
        exact ih (by simpa using hline) fun j hj l hl => h (j + 1) (by omega) l (by simpa using hl)
      by_cases hfirst : isFilled first = true
      · rw [regionLength_cons_of_filled hfirst (h 0 (Nat.zero_le k) first rfl hfirst)]
        cases k with
        | zero => exact Nat.succ_pos _
        | succ i => exact Nat.succ_lt_succ (hbelow i rfl)
      · cases k with
        | zero =>
          obtain rfl := Option.some.inj hline
          exact absurd hf hfirst
        | succ i =>
          have hi := hbelow i rfl
          rw [regionLength_cons_of_blank (by simpa using hfirst), if_neg (by omega)]
          omega

/-- Whether a line belongs to an item is decided by the lines below the marker. -/
theorem inItem_append_iff {above below : List Line} {marker : Line} {k : Nat} :
    InItem (above ++ marker :: below) above.length (above.length + k) ↔
      ∀ j < k, ∀ l, below[j]? = some l → isFilled l = true → indent marker < indent l := by
  have hget (j : Nat) : (above ++ marker :: below)[above.length + j]? = (marker :: below)[j]? := by
    rw [List.getElem?_append_right (Nat.le_add_right ..), Nat.add_sub_cancel_left]
  have hmarker : (above ++ marker :: below)[above.length]? = some marker := hget 0
  constructor
  · rintro ⟨-, h⟩ j hj l hl
    exact h marker hmarker (above.length + (j + 1)) (by omega) (by omega) l (by rw [hget]; exact hl)
  · refine fun h => ⟨Nat.le_add_right .., fun m hm j hlt hle l hl => ?_⟩
    obtain rfl := Option.some.inj (hmarker.symm.trans hm)
    obtain ⟨i, rfl⟩ := Nat.exists_eq_add_of_lt hlt
    rw [Nat.add_assoc, hget] at hl
    exact h i (by omega) l hl

/-! ## From value to value -/

section Order

variable {vocabulary : Vocabulary}

/-- Whether all that is read with a value is above another value. -/
def Sighting.IsAbove (s t : Sighting) : Prop := s.number + s.region.length < t.number

theorem length_region_of_readNested {child : Option Nat} {n : Int} {line : Line}
    {below : List Line} {s : Sighting} (h : (readNested child n line below).found = some s) :
    s.number = n ∧ s.region.length = (readNested child n line below).skipped := by
  unfold readNested at h ⊢
  split at h
  · simp at h
  · next hread =>
    rw [if_neg hread]
    split at h
    · simp at h
    · next item hitem =>
      obtain ⟨value, -, rfl⟩ := Option.map_eq_some_iff.1 h
      exact ⟨rfl, rfl⟩

/-- **The values of a block follow one another** down the page. -/
theorem pairwise_blockSightings (child : Option Nat) (n : Int) (ls : List Line) :
    (blockSightings child n ls).Pairwise Sighting.IsAbove := by
  fun_induction blockSightings child n ls with
  | case1 => exact .nil
  | case2 child n line below r ih =>
    rw [List.pairwise_append]
    refine ⟨?_, ih, fun s hs t ht => ?_⟩
    · cases r.found with
      | none => exact .nil
      | some s => exact List.pairwise_singleton _ s
    · have hread := length_region_of_readNested (Option.mem_toList.1 hs)
      have hnext := (isFoundIn_of_mem_blockSightings ht).1.bounds.1
      simp only [r] at hnext
      rw [Sighting.IsAbove, hread.1, hread.2]
      omega

theorem pairwise_readLine (above : Above) (n : Int) (line : Line) (below : List Line) :
    (readLine vocabulary above n line below).found.Pairwise Sighting.IsAbove := by
  rcases readLine_cases vocabulary above line with ⟨item, -, hread⟩ | ⟨next, -, hread⟩
  · rw [hread]
    unfold readItem
    dsimp only
    split
    · exact pairwise_blockSightings ..
    · split
      · exact .nil
      · cases ValueItem.ofContent? _ with
        | none => exact .nil
        | some value => exact List.pairwise_singleton ..
  · rw [hread]
    exact .nil

/-- **Values follow one another** down the page. -/
theorem pairwise_scan (above : Above) (n : Int) (ls : List Line) :
    (scan vocabulary above n ls).Pairwise Sighting.IsAbove := by
  fun_induction scan vocabulary above n ls with
  | case1 => exact .nil
  | case2 above n line below r ih =>
    rw [List.pairwise_append]
    refine ⟨pairwise_readLine above n line below, ih, fun s hs t ht => ?_⟩
    have hread := (bounds_of_mem_readLine hs).2
    have hnext := (isFoundIn_of_mem_scan ht).1.bounds.1
    simp only [r] at hnext
    rw [Sighting.IsAbove]
    omega

end Order

/-! ## The page -/

/-- Of spans that follow one another, one alone covers a line. -/
theorem eq_of_covers {spans : List Range} (h : spans.Pairwise Range.IsAbove) {r t : Range}
    (hr : r ∈ spans) (ht : t ∈ spans) {n : Int} (hrn : r.Covers n) (htn : t.Covers n) : r = t := by
  by_contra hne
  have hsymm : Std.Symm fun r t : Range => r.IsAbove t ∨ t.IsAbove r := ⟨fun _ _ => Or.symm⟩
  have hapart : spans.Pairwise fun r t => r.IsAbove t ∨ t.IsAbove r := h.imp Or.inl
  have habove := hapart.forall hr ht hne
  simp only [Range.IsAbove, Range.Covers] at habove hrn htn
  omega

/-- **The spans of a value are a partition of its item.** -/
theorem exists_partitions_valueOf (origin : Origin) {s : Sighting} {n : Int} {ls : List Line}
    (h : s.IsFoundIn n ls) : ∃ m, (valueOf origin s).Partitions n ls m := by
  obtain ⟨⟨above, below, rfl, hnumber, hregion⟩, item, -, hitem, -⟩ := h
  have hwithin := isWithin_of_mem_spans origin s
  have hpairwise := pairwise_spans origin s
  refine ⟨above.length, by simp [isItem, hitem], congrArg some hnumber, map_some_spans origin s,
    fun r hr => (hwithin r hr).lower_le_upper, hpairwise, fun k line hline hf hk => ?_,
    fun r hr i hi => ?_⟩
  · -- a line of the item is the marker's line or in the region
    obtain ⟨i, rfl⟩ := Nat.exists_eq_add_of_le hk.1
    rw [List.getElem?_append_right (Nat.le_add_right ..), Nat.add_sub_cancel_left] at hline
    rw [inItem_append_iff] at hk
    have hread : (s.line :: s.region)[i]? = some line := by
      cases i with
      | zero => exact hline
      | succ i =>
        rw [List.getElem?_cons_succ] at hline ⊢
        have hlt : i < regionLength (indent s.line) below :=
          (lt_regionLength_iff hline hf).2 fun j hj => hk j (by omega)
        rw [hregion, region, List.getElem?_take_of_lt hlt, hline]
    obtain ⟨r, hr, hcovers⟩ := exists_covers origin s hread hf
    rw [hnumber, Int.add_assoc, ← Int.natCast_add] at hcovers
    exact ⟨r, ⟨hr, hcovers⟩, fun t ht => eq_of_covers hpairwise ht.1 hr ht.2 hcovers⟩
  · -- what a span covers is the marker's line or in the region
    have hle := regionLength_le (indent s.line) below
    have hfirst := (hwithin r hr).first_le
    have hlast := (hwithin r hr).upper_le
    rw [hregion, length_region] at hlast
    obtain ⟨hlower, hupper⟩ := hi
    obtain ⟨k, hk⟩ := Int.eq_ofNat_of_zero_le (a := i - s.number) (by omega)
    refine ⟨above.length + k, by omega, by simp; omega, inItem_append_iff.2 fun j hj l hl => ?_⟩
    have hlt : j < regionLength (indent s.line) below := by omega
    have hmem : l ∈ region (indent s.line) below := by
      refine List.mem_of_getElem? (i := j) ?_
      rw [region, List.getElem?_take_of_lt hlt, hl]
    exact lt_indent_of_mem_region l hmem

/-- **The values of a page tile it.**  They stand on it one after the other, each with its spans
above those of the next, and the spans of a value are a partition of the item that states it. -/
theorem documentedValues_tile (vocabulary : Vocabulary) (origin : Origin) (offset : Int)
    (body : List Char) :
    (documentedValues vocabulary origin offset body).Pairwise
      (fun v w => ∀ r ∈ v.spans, ∀ t ∈ w.spans, r.IsAbove t) ∧
    ∀ v ∈ documentedValues vocabulary origin offset body,
      ∃ m, v.Partitions (offset + 1) (lines body) m := by
  constructor
  · refine List.pairwise_map.2 ((pairwise_scan _ _ _).imp fun {s u} h r hr t ht => ?_)
    have hlast := (isWithin_of_mem_spans origin s r hr).upper_le
    have hfirst := (isWithin_of_mem_spans origin u t ht).first_le
    rw [Sighting.IsAbove] at h
    rw [Range.IsAbove]
    omega
  · intro v hv
    obtain ⟨s, hs, rfl⟩ := List.mem_map.1 hv
    exact exists_partitions_valueOf origin (isFoundIn_of_mem_scan hs)

/-- Three months: one with a description of two lines, a paragraph and a fence that is not closed,
one with a list, and one in the short form after lines that belong to no month. -/
def threeMonths : List Char :=
  "- PossibleValues:\n  - May: Fifth\n    month.\n\n    Warm.\n    ```\n\n    5\n".toList ++
    "  - June:\n    - 6\n\nText.\n- PossibleValue July: 7\n".toList

/-- The spans of the months, two lines further down on the page. -/
theorem documentedValues_tile_threeMonths :
    (documentedValues oneKeyword {} 2 threeMonths).map
        (fun v => (v.name, v.spans.map fun r => (r.lower.line, r.upper.line))) =
      [("May", [(4, 5), (7, 7), (8, 10)]), ("June", [(11, 11), (12, 12)]), ("July", [(15, 15)])] ∧
    (documentedValues oneKeyword {} 2 threeMonths).Pairwise
      (fun v w => ∀ r ∈ v.spans, ∀ t ∈ w.spans, r.IsAbove t) ∧
    ∀ v ∈ documentedValues oneKeyword {} 2 threeMonths,
      ∃ m, v.Partitions (2 + 1) (lines threeMonths) m :=
  ⟨by decide +kernel, documentedValues_tile oneKeyword {} 2 threeMonths⟩

end Directive
end ValueDocs
