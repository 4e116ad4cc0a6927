import ValueDocs.Directive.Region
import ValueDocs.Proofs.Directive.Lines

/-!
# Proofs/Directive/Regions — where a region ends

A region ends with a line that says something, and what follows it adds nothing to it
(`regionLength_drop`).  So a region is found again among more lines (`regionLength_append`), even
when it was found among the lines of a wider region, and it stays when what follows it gives way to
something else that ends it (`region_append_congr`).
-/

namespace ValueDocs.Directive

open Text

/-- Whether the last of some lines says something, if there is a last one. -/
def EndsFilled (ls : List Line) : Prop := ∀ l ∈ ls.getLast?, isFilled l = true

@[simp] theorem endsFilled_nil : EndsFilled [] := by simp [EndsFilled]

theorem EndsFilled.of_append (xs : List Line) {ys : List Line} (h : EndsFilled (xs ++ ys)) :
    EndsFilled ys := by
  intro l hl
  refine h l ?_
  rw [List.getLast?_append, Option.mem_def.1 hl]
  rfl

theorem EndsFilled.tail {line : Line} {ls : List Line} (h : EndsFilled (line :: ls)) :
    EndsFilled ls :=
  EndsFilled.of_append [line] h

theorem EndsFilled.cons {line : Line} {ls : List Line} (h : EndsFilled ls)
    (hline : ls = [] → isFilled line = true) : EndsFilled (line :: ls) := by
  rcases ls with _ | ⟨l, ls⟩
  · simpa [EndsFilled] using hline rfl
  · simpa [EndsFilled, List.getLast?_cons_cons] using h

theorem EndsFilled.of_forall {ls : List Line} (h : ∀ l ∈ ls, isFilled l = true) : EndsFilled ls :=
  fun l hl => h l (List.mem_of_getLast? hl)

theorem EndsFilled.append {xs ys : List Line} (hx : EndsFilled xs) (hy : EndsFilled ys) :
    EndsFilled (xs ++ ys) := by
  rcases List.eq_nil_or_concat ys with rfl | ⟨zs, z, rfl⟩
  · rwa [List.append_nil]
  · simpa [EndsFilled] using hy

theorem EndsFilled.flatMap {α : Type} {f : α → List Line} {xs : List α}
    (h : ∀ x ∈ xs, EndsFilled (f x)) : EndsFilled (xs.flatMap f) := by
  induction xs with
  | nil => exact endsFilled_nil
  | cons x xs ih =>
    rw [List.flatMap_cons]
    exact (h x (List.mem_cons_self ..)).append (ih fun y hy => h y (List.mem_cons_of_mem _ hy))

/-! ## The length of a region -/

theorem regionLength_cons_of_filled {marker : Nat} {line : Line} {below : List Line}
    (hf : isFilled line = true) (hm : marker < indent line) :
    regionLength marker (line :: below) = regionLength marker below + 1 := by
  rw [regionLength, if_pos hf, if_neg (Nat.not_le.2 hm)]

theorem regionLength_cons_of_blank {marker : Nat} {line : Line} {below : List Line}
    (hf : isFilled line = false) :
    regionLength marker (line :: below) =
      if regionLength marker below = 0 then 0 else regionLength marker below + 1 := by
  rw [regionLength, if_neg (by simp [hf])]
  split <;> simp_all

@[simp] theorem length_region (marker : Nat) (below : List Line) :
    (region marker below).length = regionLength marker below :=
  List.length_take_of_le (regionLength_le marker below)

theorem region_append_drop (marker : Nat) (below : List Line) :
    region marker below ++ below.drop (regionLength marker below) = below :=
  List.take_append_drop ..

/-- Nothing below a region belongs to it. -/
theorem regionLength_drop (marker : Nat) (below : List Line) :
    regionLength marker (below.drop (regionLength marker below)) = 0 := by
  induction below with
  | nil => rfl
  | cons line below ih =>
    by_cases hf : isFilled line = true
    · by_cases hm : marker < indent line
      · rw [regionLength_cons_of_filled hf hm]
        exact ih
      · simp [regionLength, hf, Nat.not_lt.1 hm]
    · rw [Bool.not_eq_true] at hf
      have hlen : regionLength marker (line :: below) = _ := regionLength_cons_of_blank hf
      split at hlen
      · rw [hlen]
        exact hlen
      · rw [hlen]
        exact ih

/-- A deeper marker has no region where a shallower one has none. -/
theorem regionLength_eq_zero_mono {m k : Nat} (hmk : m ≤ k) {ls : List Line}
    (h : regionLength m ls = 0) : regionLength k ls = 0 := by
  induction ls with
  | nil => rfl
  | cons line ls ih =>
    by_cases hf : isFilled line = true
    · have hm : indent line ≤ m := by
        by_contra hlt
        rw [regionLength_cons_of_filled hf (Nat.not_le.1 hlt)] at h
        exact Nat.succ_ne_zero _ h
      rw [regionLength, if_pos hf, if_pos (hm.trans hmk)]
    · rw [Bool.not_eq_true] at hf
      rw [regionLength_cons_of_blank hf] at h ⊢
      split at h
      · next h0 => rw [if_pos (ih h0)]
      · omega

/-- **A region does not change when lines outside it follow.** -/
theorem regionLength_append {marker : Nat} {xs ys : List Line} (hys : regionLength marker ys = 0) :
    regionLength marker (xs ++ ys) = regionLength marker xs := by
  induction xs with
  | nil => exact hys
  | cons line xs ih => rw [List.cons_append, regionLength, regionLength, ih]

theorem region_append {marker : Nat} {xs ys : List Line} (hys : regionLength marker ys = 0) :
    region marker (xs ++ ys) = region marker xs := by
  rw [region, regionLength_append hys, List.take_append_of_le_length (regionLength_le marker xs),
    region]

/-- Lines that say nothing are no region. -/
theorem regionLength_of_forall_blank {marker : Nat} {ls : List Line}
    (h : ∀ l ∈ ls, isFilled l = false) : regionLength marker ls = 0 := by
  induction ls with
  | nil => rfl
  | cons line ls ih =>
    rw [regionLength_cons_of_blank (h line (List.mem_cons_self ..)),
      if_pos (ih fun l hl => h l (List.mem_cons_of_mem _ hl))]

/-- Lines nested deeper, the last of which says something, are a region. -/
theorem regionLength_eq_length {marker : Nat} :
    ∀ {ls : List Line}, (∀ l ∈ ls, isFilled l = true → marker < indent l) → EndsFilled ls →
      regionLength marker ls = ls.length
  | [], _, _ => rfl
  | line :: ls, hm, hend => by
    have ih := regionLength_eq_length (fun l hl => hm l (List.mem_cons_of_mem _ hl)) hend.tail
    by_cases hf : isFilled line = true
    · rw [regionLength_cons_of_filled hf (hm line (List.mem_cons_self ..) hf), ih,
        List.length_cons]
    · rcases ls with _ | ⟨l, ls⟩
      · exact absurd (hend line (by simp)) hf
      · rw [regionLength_cons_of_blank (by simpa using hf), ih]
        simp

/-- Such lines are the whole region when what follows adds nothing to it. -/
theorem region_append_eq_left {marker : Nat} {xs ys : List Line}
    (hm : ∀ l ∈ xs, isFilled l = true → marker < indent l) (hend : EndsFilled xs)
    (hys : regionLength marker ys = 0) : region marker (xs ++ ys) = xs := by
  rw [region_append hys, region, regionLength_eq_length hm hend, List.take_length]

/-- **A region ends with a line that says something.** -/
theorem endsFilled_region (marker : Nat) (below : List Line) :
    EndsFilled (region marker below) := by
  induction below with
  | nil => simp [region]
  | cons line below ih =>
    by_cases hf : isFilled line = true
    · by_cases hm : marker < indent line
      · rw [region, regionLength_cons_of_filled hf hm, List.take_succ_cons]
        exact ih.cons fun _ => hf
      · simp [region, regionLength, hf, Nat.not_lt.1 hm]
    · rw [region, regionLength_cons_of_blank (by simpa using hf)]
      split
      · simp
      · next hne =>
        rw [List.take_succ_cons]
        refine ih.cons fun h => ?_
        have hlen := length_region marker below
        rw [h, List.length_nil] at hlen
        exact absurd hlen.symm hne

/-! ## What follows a region

A region that ends before some lines knows of them only whether they end it. -/

/-- Whether the same regions end before the ones and before the other lines. -/
def EndAlike (ys ys' : List Line) : Prop :=
  ∀ marker, regionLength marker ys = 0 ↔ regionLength marker ys' = 0

theorem EndAlike.of_forall_eq_zero {ys ys' : List Line} (h : ∀ marker, regionLength marker ys = 0)
    (h' : ∀ marker, regionLength marker ys' = 0) : EndAlike ys ys' :=
  fun marker => iff_of_true (h marker) (h' marker)

/-- A line that says something decides alone which regions end before it. -/
theorem endAlike_cons {line : Line} (hf : isFilled line = true) (ys ys' : List Line) :
    EndAlike (line :: ys) (line :: ys') := by
  intro marker
  simp [regionLength, hf]

/-- **A region does not change with what follows it**, as long as that ends it. -/
theorem regionLength_append_congr {marker : Nat} {xs ys ys' : List Line} (h : EndAlike ys ys')
    (hle : regionLength marker (xs ++ ys) ≤ xs.length) :
    regionLength marker (xs ++ ys') = regionLength marker (xs ++ ys) := by
  induction xs with
  | nil =>
    have hys : regionLength marker ys = 0 := Nat.le_zero.1 hle
    exact ((h marker).1 hys).trans hys.symm
  | cons line xs ih =>
    rw [List.cons_append, List.length_cons] at hle
    rw [List.cons_append, List.cons_append]
    by_cases hf : isFilled line = true
    · by_cases hm : marker < indent line
      · rw [regionLength_cons_of_filled hf hm] at hle ⊢
        rw [regionLength_cons_of_filled hf hm, ih (by omega)]
      · simp [regionLength, hf, Nat.not_lt.1 hm]
    · rw [Bool.not_eq_true] at hf
      rw [regionLength_cons_of_blank hf] at hle ⊢
      rw [regionLength_cons_of_blank hf, ih]
      split at hle <;> omega

theorem region_append_congr {marker : Nat} {xs ys ys' : List Line} (h : EndAlike ys ys')
    (hle : regionLength marker (xs ++ ys) ≤ xs.length) :
    region marker (xs ++ ys') = region marker (xs ++ ys) := by
  have hlen := regionLength_append_congr h hle
  rw [region, region, hlen, List.take_append_of_le_length hle, List.take_append_of_le_length hle]

/-- A region is the lines that continue the item and its prose. -/
theorem continuation_append_drop (region : List Line) :
    continuation region ++ region.drop (continuation region).length = region :=
  List.prefix_iff_eq_append.1 <| List.takeWhile_prefix continuesItem

end ValueDocs.Directive
