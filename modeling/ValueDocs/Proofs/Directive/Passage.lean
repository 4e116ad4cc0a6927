import ValueDocs.Proofs.Directive.Sightings

/-!
# Proofs/Directive/Passage — from one moment of the scan to a later one

Between two moments the scan passes some lines and finds the values on them (`Passage`).  What it
finds then is what it finds in all, up to what is still to come (`Passage.scan_eq`).  A step looks
ahead to the end of a region only, so a passage is the same whatever follows it, as long as that ends
regions alike (`Passage.congr`), and what is found on the way stays within the lines passed
(`Passage.bounds`).
-/

namespace ValueDocs.Directive

open Text

/-- A moment of the scan: what is above, the number of the next line, and the lines left. -/
structure Moment where
  above : Above
  number : Int
  rest : List Line

/-- The moment after the line `n` is read. -/
def Reading.next (r : Reading) (n : Int) (below : List Line) : Moment :=
  ⟨r.above, n + 1 + r.skipped, below.drop r.skipped⟩

/-- The values that the scan finds between two moments. -/
inductive Passage (vocabulary : Vocabulary) : Moment → List Sighting → Moment → Prop
  | stay (m : Moment) : Passage vocabulary m [] m
  | read {above : Above} {n : Int} {line : Line} {below : List Line} {found : List Sighting}
      {m : Moment}
      (more : Passage vocabulary ((readLine vocabulary above n line below).next n below) found m) :
      Passage vocabulary ⟨above, n, line :: below⟩
        ((readLine vocabulary above n line below).found ++ found) m

/-- What is above the end of some lines from the line `n` on. -/
def aboveEnd (vocabulary : Vocabulary) (above : Above) (n : Int) : List Line → Above
  | [] => above
  | line :: below =>
    let r := readLine vocabulary above n line below
    aboveEnd vocabulary r.above (n + 1 + r.skipped) (below.drop r.skipped)
termination_by ls => ls.length
decreasing_by simp only [List.length_cons, List.length_drop]; omega

variable {vocabulary : Vocabulary} {above : Above} {n : Int} {line : Line} {item : ListItem}
  {below : List Line} {s : Sighting}

/-! ## One step -/

/-- **What one line does.**  It is read as an item with what is below it, or without what is below
it: then it opens a fence, belongs to nothing, or leaves what is above as it is. -/
theorem readLine_cases (vocabulary : Vocabulary) (above : Above) (line : Line) :
    (∃ item, ListItem.ofLine? line = some item ∧
      ∀ n below, readLine vocabulary above n line below = readItem vocabulary n line item below) ∨
    ∃ next, (next = above ∨ next = .nothing ∨ ∃ run, fence? line = some run ∧ next = .fence run) ∧
      ∀ n below, readLine vocabulary above n line below = { above := next } := by
  unfold readLine
  split
  · refine .inr ⟨_, ?_, fun _ _ => rfl⟩
    split
    · exact .inr (.inl rfl)
    · exact .inl rfl
  · split
    · exact .inr ⟨_, .inl rfl, fun _ _ => rfl⟩
    · dsimp only
      split
      · next run hrun =>
        refine .inr ⟨_, .inr (.inr ⟨run, ?_, rfl⟩), fun _ _ => rfl⟩
        split at hrun
        · exact hrun
        · simp at hrun
      · exact .inr ⟨_, .inr (.inl rfl), fun _ _ => rfl⟩
      · next item _ hitem =>
        split
        · exact .inl ⟨item, hitem, fun _ _ => rfl⟩
        · exact .inr ⟨_, .inl rfl, fun _ _ => rfl⟩

theorem skipped_readItem_le : (readItem vocabulary n line item below).skipped ≤ below.length := by
  have hregion : (region (indent line) below).length ≤ below.length :=
    (length_region ..).trans_le (regionLength_le ..)
  unfold readItem
  dsimp only
  split
  · exact hregion
  · split
    · exact Nat.zero_le _
    · exact hregion

theorem skipped_readLine_le :
    (readLine vocabulary above n line below).skipped ≤ below.length := by
  rcases readLine_cases vocabulary above line with ⟨item, -, hitem⟩ | ⟨next, -, hnext⟩
  · rw [hitem]
    exact skipped_readItem_le
  · rw [hnext]
    exact Nat.zero_le _

/-- **What is read at an item does not change with what follows what is read with it.** -/
theorem readItem_append_congr {xs ys ys' : List Line} (h : EndAlike ys ys')
    (hle : (readItem vocabulary n line item (xs ++ ys)).skipped ≤ xs.length) :
    readItem vocabulary n line item (xs ++ ys') = readItem vocabulary n line item (xs ++ ys) := by
  unfold readItem at hle ⊢
  dsimp only at hle ⊢
  split at hle
  · next hlabel =>
    rw [length_region] at hle
    rw [if_pos hlabel, if_pos hlabel, region_append_congr h hle]
  · next hlabel =>
    rw [if_neg hlabel, if_neg hlabel]
    split
    · rfl
    · next stated hstated =>
      simp only [hstated, length_region] at hle
      rw [region_append_congr h hle]

theorem readLine_append_congr {xs ys ys' : List Line} (h : EndAlike ys ys')
    (hle : (readLine vocabulary above n line (xs ++ ys)).skipped ≤ xs.length) :
    readLine vocabulary above n line (xs ++ ys') = readLine vocabulary above n line (xs ++ ys) := by
  rcases readLine_cases vocabulary above line with ⟨item, -, hitem⟩ | ⟨next, -, hnext⟩
  · rw [hitem] at hle
    rw [hitem, hitem]
    exact readItem_append_congr h hle
  · rw [hnext, hnext]

/-- What is read at a line stays when what is not read with it gives way to something else. -/
theorem readLine_take_append {ys : List Line}
    (h : EndAlike (below.drop (readLine vocabulary above n line below).skipped) ys) :
    readLine vocabulary above n line
        (below.take (readLine vocabulary above n line below).skipped ++ ys) =
      readLine vocabulary above n line below := by
  have hcut := List.take_append_drop (readLine vocabulary above n line below).skipped below
  refine (readLine_append_congr h ?_).trans (by rw [hcut])
  rw [hcut, List.length_take_of_le skipped_readLine_le]

/-- A value and its region are among the lines it is found in. -/
theorem Sighting.StandsIn.bounds {ls : List Line} (h : s.StandsIn n ls) :
    n ≤ s.number ∧ s.number + s.region.length < n + ls.length := by
  obtain ⟨above, below, rfl, hnumber, hregion⟩ := h
  have := regionLength_le (indent s.line) below
  rw [hregion, length_region, hnumber, List.length_append, List.length_cons]
  omega

/-- **What is found at a line and its region are among what is read with the line.** -/
theorem bounds_of_mem_readLine (h : s ∈ (readLine vocabulary above n line below).found) :
    n ≤ s.number ∧ s.number + s.region.length ≤
      n + (readLine vocabulary above n line below).skipped := by
  obtain ⟨item, -, hread⟩ := exists_readItem_of_mem_readLine h
  rw [hread] at h ⊢
  unfold readItem at h ⊢
  dsimp only at h ⊢
  split at h
  · next hlabel =>
    rw [if_pos hlabel]
    have := (isFoundIn_of_mem_blockSightings h).1.bounds
    dsimp only
    omega
  · next hlabel =>
    rw [if_neg hlabel]
    split at h
    · simp at h
    · next stated hstated =>
      obtain ⟨value, -, rfl⟩ := Option.map_eq_some_iff.1 (Option.mem_toList.1 h)
      exact ⟨Int.le_refl _, Int.le_refl _⟩

/-! ## A passage -/

namespace Passage

variable {m m' : Moment} {found found' : List Sighting}

theorem of_readLine_eq {r : Reading} (hr : readLine vocabulary above n line below = r)
    (more : Passage vocabulary (r.next n below) found m) :
    Passage vocabulary ⟨above, n, line :: below⟩ (r.found ++ found) m := by
  subst hr
  exact more.read

/-- Lines that tell nothing and leave what is above as it is are passed. -/
theorem of_forall_readLine_eq {ls : List Line}
    (h : ∀ l ∈ ls, ∀ n below, readLine vocabulary above n l below = { above := above }) (n : Int)
    (rest : List Line) :
    Passage vocabulary ⟨above, n, ls ++ rest⟩ [] ⟨above, n + ls.length, rest⟩ := by
  induction ls generalizing n with
  | nil =>
    have hstay : Passage vocabulary ⟨above, n, rest⟩ [] _ := .stay _
    simpa using hstay
  | cons l ls ih =>
    have hnumber : n + 1 + ((0 : Nat) : Int) + ls.length = n + (l :: ls).length := by
      rw [List.length_cons]
      push_cast
      omega
    have hmore := ih (fun l hl => h l (List.mem_cons_of_mem _ hl)) (n + 1 + ((0 : Nat) : Int))
    rw [hnumber] at hmore
    exact .of_readLine_eq (h l (List.mem_cons_self ..) n (ls ++ rest)) hmore

theorem trans {m'' : Moment} (h : Passage vocabulary m found m')
    (h' : Passage vocabulary m' found' m'') : Passage vocabulary m (found ++ found') m'' := by
  induction h with
  | stay => exact h'
  | read _ ih =>
    rw [List.append_assoc]
    exact (ih h').read

/-- **The scan finds what it finds on the way and what it finds from there on.** -/
theorem scan_eq (h : Passage vocabulary m found m') : scan vocabulary m.above m.number m.rest =
    found ++ scan vocabulary m'.above m'.number m'.rest := by
  induction h with
  | stay => rfl
  | read _ ih =>
    rw [scan, List.append_assoc, ← ih]
    rfl

/-- The lines are counted as they are passed. -/
theorem exists_passed (h : Passage vocabulary m found m') :
    ∃ passed, m.rest = passed ++ m'.rest ∧ m'.number = m.number + passed.length := by
  induction h with
  | stay => exact ⟨[], rfl, by simp⟩
  | @read above n line below found m _ ih =>
    obtain ⟨passed, hrest, hnumber⟩ := ih
    have hlen : (below.take (readLine vocabulary above n line below).skipped).length =
        (readLine vocabulary above n line below).skipped :=
      List.length_take_of_le skipped_readLine_le
    refine ⟨line :: (below.take (readLine vocabulary above n line below).skipped ++ passed), ?_, ?_⟩
    · rw [List.cons_append, List.append_assoc, ← hrest]
      exact congrArg (line :: ·) (List.take_append_drop ..).symm
    · rw [hnumber, List.length_cons, List.length_append, hlen]
      simp only [Reading.next]
      push_cast
      omega

/-- **What is found on the way stays within the lines passed.** -/
theorem bounds (h : Passage vocabulary m found m') : ∀ s ∈ found,
    m.number ≤ s.number ∧ s.number + s.region.length < m'.number := by
  induction h with
  | stay => simp
  | @read above n line below found m more ih =>
    obtain ⟨passed, -, hnumber⟩ := more.exists_passed
    simp only [Reading.next] at ih hnumber
    intro s hs
    rcases List.mem_append.1 hs with hs | hs
    · have := bounds_of_mem_readLine hs
      dsimp only
      omega
    · have := ih s hs
      dsimp only
      omega

/-- **A passage is the same whatever follows it**, as long as that ends regions alike. -/
theorem congr (h : Passage vocabulary m found m') {xs ys : List Line}
    (hrest : m.rest = xs ++ m'.rest) (hends : EndAlike m'.rest ys) :
    Passage vocabulary { m with rest := xs ++ ys } found { m' with rest := ys } := by
  induction h generalizing xs with
  | stay m =>
    obtain rfl : xs = [] := by simpa using hrest
    exact .stay _
  | @read above n line below found m more ih =>
    -- the lines read with this one and those passed later stand before what follows
    obtain ⟨passed, hpassed, -⟩ := more.exists_passed
    set r := readLine vocabulary above n line below with hr
    have hlen : (below.take r.skipped).length = r.skipped :=
      List.length_take_of_le skipped_readLine_le
    have hbelow : below = below.take r.skipped ++ passed ++ m.rest := by
      rw [List.append_assoc, ← hpassed]
      exact (List.take_append_drop ..).symm
    obtain rfl : xs = line :: (below.take r.skipped ++ passed) := by
      refine List.append_cancel_right (hrest.symm.trans ?_)
      rw [List.cons_append, ← hbelow]
    have hread : readLine vocabulary above n line (below.take r.skipped ++ passed ++ ys) = r := by
      refine (readLine_append_congr hends ?_).trans (by rw [← hbelow])
      rw [← hbelow, ← hr, List.length_append, hlen]
      exact Nat.le_add_right ..
    have hnext : r.next n (below.take r.skipped ++ passed ++ ys) =
        { r.next n below with rest := passed ++ ys } := by
      rw [Reading.next, Reading.next, List.append_assoc, List.drop_left' hlen]
    exact .of_readLine_eq hread (hnext ▸ ih hpassed hends)

end Passage

/-! ## To the end -/

/-- **The scan passes all lines.** -/
theorem passage_end (vocabulary : Vocabulary) (above : Above) (n : Int) (ls : List Line) :
    Passage vocabulary ⟨above, n, ls⟩ (scan vocabulary above n ls)
      ⟨aboveEnd vocabulary above n ls, n + ls.length, []⟩ := by
  fun_induction scan vocabulary above n ls with
  | case1 above n =>
    have hstay : Passage vocabulary ⟨above, n, []⟩ [] _ := .stay _
    rw [aboveEnd]
    simpa using hstay
  | case2 above n line below r ih =>
    have hle : r.skipped ≤ below.length := skipped_readLine_le
    have hnumber : n + 1 + r.skipped + ((below.drop r.skipped).length : Int) =
        n + ((line :: below).length : Int) := by
      rw [List.length_drop, List.length_cons]
      push_cast [hle]
      omega
    rw [hnumber] at ih
    rw [aboveEnd]
    exact ih.read

/-- The content of an item stands behind its marker. -/
theorem above_readItem (vocabulary : Vocabulary) (n : Int) (below : List Line)
    (hitem : ListItem.ofLine? line = some item) :
    ∃ column, 0 < column ∧ (readItem vocabulary n line item below).above = .item column := by
  refine ⟨item.contentColumn, ?_, ?_⟩
  · have := List.length_pos_iff.2 (ListItem.exists_of_ofLine? hitem).2.2
    rw [ListItem.contentColumn]
    omega
  · unfold readItem
    dsimp only
    split
    · rfl
    · split <;> rfl

/-- **At the end of some lines nothing is above that nests a line without indentation.** -/
theorem column_pos_of_aboveEnd {ls : List Line}
    (habove : ∀ column, above = .item column → 0 < column) :
    ∀ column, aboveEnd vocabulary above n ls = .item column → 0 < column := by
  fun_induction aboveEnd vocabulary above n ls with
  | case1 => exact habove
  | case2 above n line below r ih =>
    refine ih fun column hcolumn => ?_
    rcases readLine_cases vocabulary above line with ⟨item, hitem, hread⟩ | ⟨next, hnext, hread⟩
    · obtain ⟨column', hpos, habove'⟩ := above_readItem vocabulary n below hitem
      simp only [r, hread, habove', Above.item.injEq] at hcolumn
      exact hcolumn ▸ hpos
    · simp only [r, hread] at hcolumn
      rcases hnext with rfl | rfl | ⟨run, -, rfl⟩
      · exact habove column hcolumn
      · simp at hcolumn
      · simp at hcolumn

end ValueDocs.Directive
