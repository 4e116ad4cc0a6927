import ValueDocs.Proofs.Directive.Descriptions
import ValueDocs.Proofs.Directive.Passage
import ValueDocs.Proofs.Directive.Renaming

/-!
# Proofs/Directive/RenamedScan — the scan finds the same values when one is renamed

The line of a renamed value still states it and is nested as before, so no region ends elsewhere.
One step of the scan therefore reads what it read, whether the line is below what the step reads
(`readLine_replace`) or a part of it (`exists_readItem_rename`), and the whole scan finds the values
as they were, one of them under its new name (`exists_scan_rename`).
-/

namespace ValueDocs

open Text Directive

namespace Directive

/-- The value of a sighting under another name, which stands where the old one did. -/
def Sighting.rename (s : Sighting) (new : List Char) : Sighting :=
  let start := s.column + s.item.nameStart
  { s with
    line := s.line.take start ++ (new ++ s.line.drop (start + s.item.name.length))
    item := s.item.rename new }

/-! ## The line of the value -/

section Line

variable {line : Line} {item : ListItem} {first stated new : List Char} {v : ValueItem}

/-- The text behind a marker starts with no blank. -/
theorem ListItem.not_isBlank_of_content_eq_cons (h : ofLine? line = some item) {c : Char}
    {t : List Char} (hc : item.content = c :: t) : isBlank c = false := by
  simp only [ofLine?, Option.bind_eq_bind, Option.bind_eq_some_iff, Prod.exists] at h
  obtain ⟨marker, rest, -, h⟩ := h
  split at h
  · simp at h
  · obtain rfl := Option.some.inj h
    exact not_isBlank_of_trimStart_eq_cons hc

/-- List items with the same blanks in front are nested alike. -/
theorem AreNestedAlike.of_ofLine? {line' : Line} {item' : ListItem}
    (h : ListItem.ofLine? line = some item) (h' : ListItem.ofLine? line' = some item')
    (hlead : item.lead = item'.lead) : AreNestedAlike line line' := by
  refine ⟨?_, ?_⟩
  · rw [ListItem.isFilled_of_ofLine? h, ListItem.isFilled_of_ofLine? h']
  · rw [(ListItem.exists_of_ofLine? h).1, (ListItem.exists_of_ofLine? h').1] at hlead
    rw [indent, indent, ← takeWhile_isIndent, hlead, takeWhile_isIndent]

/-- **The line of a value reads the same under another name**: the same marker, and what introduces
the value unchanged before it. -/
theorem exists_ofLine?_rename (hitem : ListItem.ofLine? line = some item)
    (hcontent : item.content = first ++ stated) (hv : ValueItem.ofContent? stated = some v)
    (hnew : IsWritable new) {s : Sighting} (hline : s.line = line) (hs : s.item = v)
    (hcolumn : s.column = item.contentColumn + first.length) :
    ∃ d t, isBlank d = false ∧ ValueItem.ofContent? (d :: t) = some (v.rename new) ∧
      ListItem.ofLine? (s.rename new).line = some { item with content := first ++ d :: t } := by
  obtain ⟨lead, tail, hstated, hstart, hlead, hreplace⟩ := ValueItem.ofContent?_replaceName hv
  obtain ⟨c, cs, hc, hnotBlank⟩ := hnew.exists_eq_cons
  obtain ⟨d, t, hcut, hd⟩ : ∃ d t, lead ++ (new ++ tail) = d :: t ∧ isBlank d = false := by
    rcases hlead with rfl | rfl
    · exact ⟨c, cs ++ tail, by rw [hc]; rfl, hnotBlank⟩
    · exact ⟨'`', new ++ tail, rfl, rfl⟩
  refine ⟨d, t, hd, hcut ▸ hreplace new hnew, ?_⟩
  have hparts : line = (item.lead ++ (item.marker ++ (item.gap ++ (first ++ lead)))) ++
      (v.name ++ tail) := by
    rw [← ListItem.toLine_of_ofLine? hitem, ListItem.toLine, hcontent, hstated]
    simp
  have hlen : s.column + v.nameStart =
      (item.lead ++ (item.marker ++ (item.gap ++ (first ++ lead)))).length := by
    rw [hcolumn, hstart, ListItem.contentColumn]
    simp only [List.length_append]
    omega
  have hrenamed : (s.rename new).line =
      item.lead ++ (item.marker ++ (item.gap ++ (first ++ d :: t))) := by
    rw [Sighting.rename, hs, hline, hlen]
    dsimp only
    rw [hparts, List.take_left, ← List.drop_drop, List.drop_left, List.drop_left, ← hcut]
    simp
  rw [hrenamed]
  rcases first with _ | ⟨e, first⟩
  · exact ListItem.ofLine?_replaceContent hitem hd t
  · exact ListItem.ofLine?_replaceContent hitem
      (ListItem.not_isBlank_of_content_eq_cons hitem hcontent) _

end Line

/-! ## Regions -/

/-- Regions end alike before lines one of which gives way to one that is nested alike. -/
theorem AreNestedAlike.endAlike {line line' : Line} (h : AreNestedAlike line line')
    (above rest : List Line) : EndAlike (above ++ line :: rest) (above ++ line' :: rest) :=
  fun marker => by rw [regionLength_replace marker h]

/-- A line below a region can give way to one that is nested alike. -/
theorem region_replace {marker : Nat} {line line' : Line} (h : AreNestedAlike line line')
    {below above rest : List Line}
    (hbelow : below.drop (regionLength marker below) = above ++ line :: rest) :
    region marker (region marker below ++ (above ++ line' :: rest)) = region marker below := by
  have hcut := region_append_drop marker below
  rw [hbelow] at hcut
  refine (region_append_congr (h.endAlike above rest) ?_).trans (by rw [hcut])
  rw [hcut, length_region]

/-- A line of a region can give way to one that is nested alike, and the region ends where it did. -/
theorem region_replace_of_mem {marker : Nat} {line line' : Line} (h : AreNestedAlike line line')
    {below upper lower : List Line} (hregion : region marker below = upper ++ line :: lower) :
    ∃ rest, below.drop (regionLength marker below) = rest ∧
      below = upper ++ line :: (lower ++ rest) ∧
      regionLength marker (upper ++ line' :: (lower ++ rest)) = regionLength marker below ∧
      region marker (upper ++ line' :: (lower ++ rest)) = upper ++ line' :: lower ∧
      (upper ++ line' :: (lower ++ rest)).drop (regionLength marker below) = rest := by
  have hbelow : below = upper ++ line :: (lower ++ below.drop (regionLength marker below)) := by
    rw [← List.cons_append, ← List.append_assoc, ← hregion, region_append_drop]
  have hlen : regionLength marker (upper ++ line' ::
      (lower ++ below.drop (regionLength marker below))) = regionLength marker below := by
    rw [← regionLength_replace marker h, ← hbelow]
  have hwidth : (upper ++ line' :: lower).length = regionLength marker below := by
    rw [← length_region, hregion]
    simp
  refine ⟨_, rfl, hbelow, hlen, ?_, ?_⟩
  · rw [region, hlen, ← List.cons_append, ← List.append_assoc]
    exact List.take_left' hwidth
  · rw [← List.cons_append, ← List.append_assoc]
    exact List.drop_left' hwidth

/-! ## The block form -/

section Block

variable {child : Option Nat} {n : Int} {line : Line} {below : List Line} {s : Sighting}
  {new : List Char}

/-- The item of a block that states a value states it under another name, too. -/
theorem readNested_rename (h : (readNested child n line below).found = some s)
    (hplain : HasPlainIndent s.line) (hnew : IsWritable new) :
    s.line = line ∧ s.number = n ∧ AreNestedAlike line (s.rename new).line ∧
      readNested child n (s.rename new).line below =
        { readNested child n line below with found := some (s.rename new) } := by
  unfold readNested at h
  split at h
  · simp at h
  · next hread =>
    split at h
    · simp at h
    · next item hitem =>
      obtain ⟨v, hv, rfl⟩ := Option.map_eq_some_iff.1 h
      have hcolumn : indent line + item.marker.length + item.gap.length =
          item.contentColumn + ([] : List Char).length := by
        rw [(ListItem.indent_eq_length_lead hitem).2 hplain]
        rfl
      obtain ⟨d, t, -, hstates, hitem'⟩ := exists_ofLine?_rename hitem rfl hv hnew
        (s := ⟨n, line, _, v, region (indent line) below⟩) rfl rfl hcolumn
      have halike := AreNestedAlike.of_ofLine? hitem hitem' rfl
      refine ⟨rfl, rfl, halike, ?_⟩
      simp only [readNested, ← halike.isFilled_eq, ← halike.indent_eq, hitem, hitem', hstates, hv,
        List.nil_append, Option.map_some, if_neg hread]
      rfl

/-- What is read at one line of a block does not change when a line below its region does. -/
theorem readNested_replace {old line' : Line} (h : AreNestedAlike old line')
    {above rest : List Line}
    (hbelow : below.drop (readNested child n line below).skipped = above ++ old :: rest) :
    readNested child n line (below.take (readNested child n line below).skipped ++
      (above ++ line' :: rest)) = readNested child n line below := by
  unfold readNested at hbelow ⊢
  split
  · rfl
  · next hread =>
    rw [if_neg hread] at hbelow
    split
    · rfl
    · next item hitem =>
      simp only [hitem, length_region] at hbelow
      have hregion : region (indent line) (below.take (regionLength (indent line) below) ++
          (above ++ line' :: rest)) = region (indent line) below := region_replace h hbelow
      simp only [length_region, hregion]

/-- An element of a list in two parts is in one of them. -/
theorem append_eq_append_cons {α : Type} {xs ys before after : List α} {x : α}
    (h : xs ++ ys = before ++ x :: after) :
    (∃ t, before = xs ++ t ∧ ys = t ++ x :: after) ∨
      ∃ t, xs = before ++ x :: t ∧ after = t ++ ys := by
  rcases List.append_eq_append_iff.1 h with ⟨t, hbefore, hys⟩ | ⟨t, hxs, hafter⟩
  · exact .inl ⟨t, hbefore, hys⟩
  · rcases t with _ | ⟨y, t⟩
    · exact .inl ⟨[], by simpa using hxs.symm, by simpa using hafter.symm⟩
    · obtain ⟨rfl, rfl⟩ := List.cons_eq_cons.1 hafter
      exact .inr ⟨t, hxs, rfl⟩

theorem toList_eq_append_cons {α : Type} {o : Option α} {before after : List α} {x : α}
    (h : o.toList = before ++ x :: after) : o = some x ∧ before = [] ∧ after = [] := by
  rcases o with _ | y
  · simp at h
  · rcases before with _ | ⟨z, before⟩
    · obtain ⟨rfl, rfl⟩ := List.cons_eq_cons.1 h
      exact ⟨rfl, rfl, rfl⟩
    · simp at h

/-- Whether some lines, from the line `n` on, have a sighting among them and are nested as before
when it is renamed. -/
structure Sighting.IsOn (s : Sighting) (new : List Char) (n : Int) (ls upper lower : List Line) :
    Prop where
  lines_eq : ls = upper ++ s.line :: lower
  number_eq : s.number = n + upper.length
  areNestedAlike : AreNestedAlike s.line (s.rename new).line

theorem Sighting.IsOn.le_length {s : Sighting} {new : List Char} {n : Int} {k : Nat}
    {ls upper lower : List Line} (h : s.IsOn new n (ls.drop k) upper lower) : k ≤ ls.length := by
  have := congrArg List.length h.lines_eq
  simp only [List.length_drop, List.length_append, List.length_cons] at this
  omega

theorem Sighting.IsOn.of_drop {s : Sighting} {new : List Char} {n : Int} {k : Nat}
    {ls upper lower : List Line} (h : s.IsOn new (n + k) (ls.drop k) upper lower) :
    s.IsOn new n ls (ls.take k ++ upper) lower := by
  refine ⟨?_, ?_, h.areNestedAlike⟩
  · rw [List.append_assoc, ← h.lines_eq, List.take_append_drop]
  · rw [h.number_eq, List.length_append, List.length_take_of_le h.le_length]
    omega

/-- **The values of a block are found as before**, one of them under its new name. -/
theorem exists_blockSightings_rename {child : Option Nat} {n : Int} {ls : List Line}
    {s : Sighting} {new : List Char} (hplain : HasPlainIndent s.line)
    (hnew : IsWritable new) : ∀ {before after : List Sighting},
      blockSightings child n ls = before ++ s :: after →
      ∃ upper lower, s.IsOn new n ls upper lower ∧
        blockSightings child n (upper ++ (s.rename new).line :: lower) =
          before ++ s.rename new :: after := by
  fun_induction blockSightings child n ls with
  | case1 => simp
  | case2 child n line below r =>
    rename_i ih
    intro before after h
    rcases append_eq_append_cons h with ⟨later, rfl, hlater⟩ | ⟨later, hfound, rfl⟩
    · -- the value is below this item, whose region does not reach it
      obtain ⟨upper, lower, hon, hread⟩ := ih hlater
      have hsame := readNested_replace hon.areNestedAlike hon.lines_eq
      refine ⟨line :: (below.take r.skipped ++ upper), lower, ?_, ?_⟩
      · exact Sighting.IsOn.of_drop (k := 1) (by simpa using hon.of_drop)
      · rw [List.cons_append, List.append_assoc, blockSightings, hsame,
          List.drop_left' (List.length_take_of_le hon.le_length), hread, List.append_assoc]
    · -- the value is on this item
      obtain ⟨hs, rfl, rfl⟩ := toList_eq_append_cons hfound
      obtain ⟨rfl, rfl, halike, hread⟩ := readNested_rename hs hplain hnew
      refine ⟨[], below, ⟨rfl, by simp, halike⟩, ?_⟩
      rw [List.nil_append, blockSightings, hread]
      rfl

end Block

/-! ## The scan -/

/-- Whether a line may introduce values: it stands in no fence and in no item. -/
structure IsOutermost (above : Above) (line : Line) : Prop where
  notFenced : ∀ run, above ≠ .fence run
  notNested : above.nests line = false
  indent_le : indent line ≤ outermostIndent

theorem IsOutermost.of_alike {above : Above} {line line' : Line} (h : IsOutermost above line)
    (halike : AreNestedAlike line line') : IsOutermost above line' := by
  refine ⟨h.notFenced, ?_, halike.indent_eq ▸ h.indent_le⟩
  rw [← h.notNested]
  cases above <;> simp [Above.nests, halike.indent_eq]

section Scan

variable {vocabulary : Vocabulary} {above : Above} {n : Int} {line : Line} {item : ListItem}
  {below : List Line} {s : Sighting} {new : List Char}

theorem isOutermost_of_mem_readLine (h : s ∈ (readLine vocabulary above n line below).found) :
    IsOutermost above line := by
  unfold readLine at h
  split at h
  · simp at h
  · next hfence =>
    split at h
    · simp at h
    · next hread =>
      dsimp only at h
      split at h
      · simp at h
      · simp at h
      · split at h
        · next hindent =>
          rw [Bool.or_eq_true, not_or, Bool.not_eq_true, Bool.not_eq_true] at hread
          exact ⟨hfence, hread.2, by simpa using hindent⟩
        · simp at h

theorem readLine_of_isOutermost (h : IsOutermost above line)
    (hitem : ListItem.ofLine? line = some item) :
    readLine vocabulary above n line below = readItem vocabulary n line item below := by
  unfold readLine
  split
  · next run => exact absurd rfl (h.notFenced run)
  · simp [ListItem.isFilled_of_ofLine? hitem, h.notNested, h.indent_le,
      ListItem.fence?_of_ofLine? hitem, hitem]

/-- What is read at one line does not change when a line below what is read with it does. -/
theorem readLine_replace {old line' : Line} (h : AreNestedAlike old line') {upper rest : List Line}
    (hbelow : below.drop (readLine vocabulary above n line below).skipped = upper ++ old :: rest) :
    readLine vocabulary above n line (below.take (readLine vocabulary above n line below).skipped ++
      (upper ++ line' :: rest)) = readLine vocabulary above n line below :=
  readLine_take_append (hbelow ▸ h.endAlike upper rest)

/-- Whether the lines `line' :: below'` tell `found` where `line :: below` were: their first line is
an item nested as the other one was, and what comes after what is read with it is the same. -/
structure IsReadAlike (n : Int) (line : Line) (item : ListItem) (below : List Line)
    (found : List Sighting) (line' : Line) (item' : ListItem) (below' : List Line) : Prop where
  ofLine?_eq : ListItem.ofLine? line' = some item'
  areNestedAlike : AreNestedAlike line line'
  readItem_eq : readItem defaultVocabulary n line' item' below' =
    { readItem defaultVocabulary n line item below with found }
  drop_eq : below'.drop (readItem defaultVocabulary n line item below).skipped =
    below.drop (readItem defaultVocabulary n line item below).skipped

/-- **A label introduces a nested value under another name**, and its region is as long. -/
theorem exists_readItem_rename_nested {before after : List Sighting}
    (hitem : ListItem.ofLine? line = some item)
    (hlabel : isLabel defaultVocabulary.block item.content = true)
    (h : (readItem defaultVocabulary n line item below).found = before ++ s :: after)
    (hplain : HasPlainIndent s.line) (hnew : IsWritable new) :
    ∃ upper lower, s.IsOn new n (line :: below) (line :: upper) lower ∧
      IsReadAlike n line item below (before ++ s.rename new :: after) line item
        (upper ++ (s.rename new).line :: lower) := by
  have hread (below : List Line) : readItem defaultVocabulary n line item below =
      { found := blockSightings none (n + 1) (region (indent line) below)
        skipped := regionLength (indent line) below
        above := .item item.contentColumn } := by
    rw [readItem, if_pos hlabel, length_region]
  rw [hread] at h
  obtain ⟨upper, lower, hon, hfound⟩ := exists_blockSightings_rename hplain hnew h
  obtain ⟨rest, hrest, hbelow, hlen, hregion, hdrop⟩ :=
    region_replace_of_mem hon.areNestedAlike hon.lines_eq
  refine ⟨upper, lower ++ rest, ⟨?_, ?_, hon.areNestedAlike⟩, hitem, ⟨rfl, rfl⟩, ?_, ?_⟩
  · rw [List.cons_append, ← hbelow]
  · rw [hon.number_eq, List.length_cons]
    omega
  · rw [hread, hread, hregion, hlen, hfound]
  · rw [hread, hdrop, hrest]

/-- **An item of the short form introduces its value under another name**, and is no label then. -/
theorem exists_readItem_rename_own {before after : List Sighting}
    (hitem : ListItem.ofLine? line = some item)
    (hlabel : isLabel defaultVocabulary.block item.content = false)
    (h : (readItem defaultVocabulary n line item below).found = before ++ s :: after)
    (hplain : HasPlainIndent s.line) (hnew : IsWritable new) :
    ∃ item', s.IsOn new n (line :: below) [] below ∧
      IsReadAlike n line item below (before ++ s.rename new :: after) (s.rename new).line item'
        below := by
  have hread := readItem.eq_def defaultVocabulary n line item below
  dsimp only at hread
  rw [hlabel, if_neg Bool.false_ne_true] at hread
  split at hread
  · simp [hread] at h
  · next stated hstated =>
    rw [hread] at h
    obtain ⟨hs, rfl, rfl⟩ := toList_eq_append_cons h
    obtain ⟨v, hv, rfl⟩ := Option.map_eq_some_iff.1 hs
    obtain ⟨first, hcontent, hintroduced⟩ := afterIntroduction?_replace hstated hv
    have hfirst : item.content.length - stated.length = first.length := by
      rw [hcontent, List.length_append, Nat.add_sub_cancel]
    obtain ⟨d, t, hd, hstates, hitem'⟩ := exists_ofLine?_rename hitem hcontent hv hnew
      (s := ⟨n, line, _, v, region (indent line) below⟩) rfl rfl
      (congrArg (item.contentColumn + ·) hfirst)
    obtain ⟨hintroduced, hnoLabel⟩ := hintroduced d t hd
    have halike := AreNestedAlike.of_ofLine? hitem hitem' rfl
    have hwidth : (first ++ d :: t).length - (d :: t).length = first.length := by
      rw [List.length_append, Nat.add_sub_cancel]
    refine ⟨_, ⟨rfl, by simp, halike⟩, hitem', halike, ?_, rfl⟩
    rw [hread, readItem]
    dsimp only
    rw [hnoLabel, if_neg Bool.false_ne_true, hintroduced]
    dsimp only
    rw [hstates, hwidth, ← halike.indent_eq, ← hfirst]
    rfl

/-- **An item that introduces a value introduces it under another name**, whether the item is of
the short form or the value is nested below a label. -/
theorem exists_readItem_rename {before after : List Sighting}
    (hitem : ListItem.ofLine? line = some item)
    (h : (readItem defaultVocabulary n line item below).found = before ++ s :: after)
    (hplain : HasPlainIndent s.line) (hnew : IsWritable new) :
    ∃ upper lower line' below' item', s.IsOn new n (line :: below) upper lower ∧
      upper ++ (s.rename new).line :: lower = line' :: below' ∧
      IsReadAlike n line item below (before ++ s.rename new :: after) line' item' below' := by
  by_cases hlabel : isLabel defaultVocabulary.block item.content = true
  · obtain ⟨upper, lower, hon, halike⟩ :=
      exists_readItem_rename_nested hitem hlabel h hplain hnew
    exact ⟨_, lower, line, _, item, hon, rfl, halike⟩
  · obtain ⟨item', hon, halike⟩ :=
      exists_readItem_rename_own hitem (Bool.eq_false_iff.2 hlabel) h hplain hnew
    exact ⟨[], below, _, below, item', hon, rfl, halike⟩

/-- **The scan finds the values as before**, one of them under its new name. -/
theorem exists_scan_rename {ls : List Line} (hplain : HasPlainIndent s.line)
    (hnew : IsWritable new) : ∀ {before after : List Sighting},
      scan defaultVocabulary above n ls = before ++ s :: after →
      ∃ upper lower, s.IsOn new n ls upper lower ∧
        scan defaultVocabulary above n (upper ++ (s.rename new).line :: lower) =
          before ++ s.rename new :: after := by
  fun_induction scan defaultVocabulary above n ls with
  | case1 => simp
  | case2 above n line below r =>
    rename_i ih
    intro before after h
    rcases append_eq_append_cons h with ⟨later, rfl, hlater⟩ | ⟨later, hfound, rfl⟩
    · -- the value is below what is read with this line
      obtain ⟨upper, lower, hon, hread⟩ := ih hlater
      have hsame := readLine_replace hon.areNestedAlike hon.lines_eq
      refine ⟨line :: (below.take r.skipped ++ upper), lower, ?_, ?_⟩
      · exact Sighting.IsOn.of_drop (k := 1) (by simpa using hon.of_drop)
      · rw [List.cons_append, List.append_assoc, scan, hsame,
          List.drop_left' (List.length_take_of_le hon.le_length), hread, List.append_assoc]
    · -- the value is on this line, or in the block that it introduces
      have hmem : s ∈ r.found := by rw [hfound]; simp
      have houtermost := isOutermost_of_mem_readLine hmem
      obtain ⟨item, hitem, hread⟩ := exists_readItem_of_mem_readLine hmem
      change r = _ at hread
      rw [hread] at hfound
      obtain ⟨upper, lower, line', below', item', hon, hcut, halike⟩ :=
        exists_readItem_rename hitem hfound hplain hnew
      refine ⟨upper, lower, hon, ?_⟩
      rw [hcut, scan, readLine_of_isOutermost (houtermost.of_alike halike.areNestedAlike)
        halike.ofLine?_eq, halike.readItem_eq, hread]
      dsimp only
      rw [halike.drop_eq, List.append_assoc, List.cons_append]

end Scan

/-- **A renamed value tells the same** but for its name. -/
theorem valueOf_rename (origin : Origin) (s : Sighting) {new : List Char} (hnew : IsWritable new) :
    (valueOf origin (s.rename new)).name = String.ofList new ∧
      (valueOf origin (s.rename new)).shortDescription = (valueOf origin s).shortDescription ∧
      (valueOf origin (s.rename new)).prose = (valueOf origin s).prose := by
  refine ⟨congrArg String.ofList hnew.trim_eq, ?_, rfl⟩
  change String.ofList (unlines _) = String.ofList (unlines _)
  rw [map_text_descriptionLines, map_text_descriptionLines]
  rfl

end Directive
end ValueDocs
