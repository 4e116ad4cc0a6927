import Mathlib.Order.Bounds.Defs
import Mathlib.Order.MinMax
import ValueDocs.Suggestion.EditDistance

/-!
# Proofs/EditScripts — the distance is the length of a shortest edit script

A script turns one text into another by edits of one character each.  Following the recurrence finds
a script of the fewest edits (`script_fewest`).  No script is shorter, since one edit brings a text
nearer to any other by one at most (`Edit.fewest_le`).  The rows hold the fewest edits between what
was read of the two texts (`lastRow_fewestFrom`).  This grows at its end and not in front, so the
recurrence runs over the reversed texts, and scripts are reversed along with them.  Scripts are read
backwards and put one after the other too, so the distance is a metric.
-/

namespace ValueDocs.EditDistance

variable {α : Type}

/-- One text with a character inserted, deleted or replaced is another. -/
inductive Edit : List α → List α → Prop
  | insert (before : List α) (c : α) (after : List α) :
    Edit (before ++ after) (before ++ c :: after)
  | delete (before : List α) (c : α) (after : List α) :
    Edit (before ++ c :: after) (before ++ after)
  | replace (before : List α) (c d : α) (after : List α) :
    Edit (before ++ c :: after) (before ++ d :: after)

/-- So many edits, one after the other, turn one text into another. -/
inductive Script : Nat → List α → List α → Prop
  | done (xs : List α) : Script 0 xs xs
  | edit {n : Nat} {xs ys zs : List α} (first : Edit xs ys) (rest : Script n ys zs) :
    Script (n + 1) xs zs

/-! ## Scripts -/

section Script

variable {m n : Nat} {xs ys zs : List α}

/-- An edit can be taken back. -/
theorem Edit.symm (h : Edit xs ys) : Edit ys xs := by
  cases h with
  | insert before c after => exact .delete before c after
  | delete before c after => exact .insert before c after
  | replace before c d after => exact .replace before d c after

/-- A character in front stays as it is. -/
theorem Edit.cons (x : α) (h : Edit xs ys) : Edit (x :: xs) (x :: ys) := by
  cases h with
  | insert before c after => exact .insert (x :: before) c after
  | delete before c after => exact .delete (x :: before) c after
  | replace before c d after => exact .replace (x :: before) c d after

/-- An edit is one of the reversed texts too. -/
theorem Edit.reverse (h : Edit xs ys) : Edit xs.reverse ys.reverse := by
  cases h with
  | insert before c after => simpa using Edit.insert after.reverse c before.reverse
  | delete before c after => simpa using Edit.delete after.reverse c before.reverse
  | replace before c d after => simpa using Edit.replace after.reverse c d before.reverse

theorem Script.cons (x : α) (h : Script n xs ys) : Script n (x :: xs) (x :: ys) := by
  induction h with
  | done xs => exact .done _
  | edit first _ ih => exact .edit (first.cons x) ih

theorem Script.trans (h : Script m xs ys) (h' : Script n ys zs) : Script (m + n) xs zs := by
  induction h with
  | done => rwa [Nat.zero_add]
  | edit first _ ih =>
    rw [Nat.add_right_comm]
    exact .edit first (ih h')

theorem Script.symm (h : Script n xs ys) : Script n ys xs := by
  induction h with
  | done xs => exact .done xs
  | edit first _ ih => exact ih.trans (.edit first.symm (.done _))

theorem Script.reverse (h : Script n xs ys) : Script n xs.reverse ys.reverse := by
  induction h with
  | done xs => exact .done _
  | edit first _ ih => exact .edit first.reverse ih

theorem Script.eq_of_zero (h : Script 0 xs ys) : xs = ys := by
  cases h
  rfl

theorem script_insertAll : ∀ ys : List α, Script ys.length [] ys
  | [] => .done []
  | y :: ys => .edit (.insert [] y []) ((script_insertAll ys).cons y)

end Script

/-! ## The fewest edits -/

variable [DecidableEq α]

/-- How many edits the recurrence asks for: the first characters are deleted, inserted or
matched. -/
def fewest : List α → List α → Nat
  | [], ys => ys.length
  | _ :: xs, [] => xs.length + 1
  | x :: xs, y :: ys =>
    min (min (fewest xs (y :: ys) + 1) (fewest (x :: xs) ys + 1))
      (fewest xs ys + if x = y then 0 else 1)
termination_by xs ys => xs.length + ys.length

@[simp] theorem fewest_nil_left (ys : List α) : fewest [] ys = ys.length := by
  rw [fewest]

@[simp] theorem fewest_nil_right (xs : List α) : fewest xs [] = xs.length := by
  cases xs <;> simp [fewest]

theorem fewest_cons_cons (x y : α) (xs ys : List α) :
    fewest (x :: xs) (y :: ys) =
      min (min (fewest xs (y :: ys) + 1) (fewest (x :: xs) ys + 1))
        (fewest xs ys + if x = y then 0 else 1) := by
  rw [fewest]

/-- **The recurrence is a script**: it deletes, inserts or matches the first characters. -/
theorem script_fewest (xs ys : List α) : Script (fewest xs ys) xs ys := by
  induction xs generalizing ys with
  | nil => simpa using script_insertAll ys
  | cons x xs ihx =>
    induction ys with
    | nil => simpa using (script_insertAll (x :: xs)).symm
    | cons y ys ihy =>
      have hdelete : Script (fewest xs (y :: ys) + 1) (x :: xs) (y :: ys) :=
        .edit (.delete [] x xs) (ihx (y :: ys))
      have hinsert : Script (fewest (x :: xs) ys + 1) (x :: xs) (y :: ys) :=
        .edit (.insert [] y (x :: xs)) (ihy.cons y)
      have hmatch : Script (fewest xs ys + if x = y then 0 else 1) (x :: xs) (y :: ys) := by
        split
        · next heq => exact heq ▸ (ihx ys).cons x
        · exact .edit (.replace [] x y xs) ((ihx ys).cons y)
      rw [fewest_cons_cons]
      rcases min_choice (min (fewest xs (y :: ys) + 1) (fewest (x :: xs) ys + 1))
        (fewest xs ys + if x = y then 0 else 1) with h | h
      · rw [h]
        rcases min_choice (fewest xs (y :: ys) + 1) (fewest (x :: xs) ys + 1) with h | h
        · rwa [h]
        · rwa [h]
      · rwa [h]

/-! ## No script is shorter -/

theorem fewest_cons_le (x : α) (xs zs : List α) : fewest (x :: xs) zs ≤ fewest xs zs + 1 := by
  cases zs with
  | nil => simp
  | cons z zs =>
    rw [fewest_cons_cons]
    omega

theorem fewest_le_fewest_cons (x : α) (xs zs : List α) :
    fewest xs zs ≤ fewest (x :: xs) zs + 1 := by
  have hstep (z : α) (zs : List α) : fewest xs (z :: zs) ≤ fewest xs zs + 1 := by
    cases xs with
    | nil => simp
    | cons x xs =>
      rw [fewest_cons_cons]
      omega
  induction zs with
  | nil =>
    simp only [fewest_nil_right, List.length_cons]
    omega
  | cons z zs ih =>
    have := hstep z zs
    rw [fewest_cons_cons]
    omega

theorem fewest_replace_le (c d : α) (xs zs : List α) :
    fewest (c :: xs) zs ≤ fewest (d :: xs) zs + 1 := by
  induction zs with
  | nil => simp
  | cons z zs ih =>
    rw [fewest_cons_cons, fewest_cons_cons]
    split <;> omega

/-- What a text is nearer by than another stays when both have one more character in front. -/
theorem fewest_cons_le_of_forall {n : Nat} {xs ys : List α}
    (h : ∀ zs, fewest xs zs ≤ fewest ys zs + n) (c : α) (zs : List α) :
    fewest (c :: xs) zs ≤ fewest (c :: ys) zs + n := by
  induction zs with
  | nil =>
    have := h []
    simp only [fewest_nil_right, List.length_cons] at this ⊢
    omega
  | cons z zs ih =>
    have hdelete := h (z :: zs)
    have hmatch := h zs
    rw [fewest_cons_cons, fewest_cons_cons]
    omega

/-- **An edit changes the fewest to any text by one at most.** -/
theorem Edit.fewest_le {xs ys : List α} (h : Edit xs ys) (zs : List α) :
    fewest xs zs ≤ fewest ys zs + 1 := by
  have hbefore (before : List α) {xs ys : List α}
      (h : ∀ zs, fewest xs zs ≤ fewest ys zs + 1) :
      ∀ zs, fewest (before ++ xs) zs ≤ fewest (before ++ ys) zs + 1 := by
    induction before with
    | nil => exact h
    | cons b before ih => exact fewest_cons_le_of_forall ih b
  cases h with
  | insert before c after => exact hbefore before (fewest_le_fewest_cons c after) zs
  | delete before c after => exact hbefore before (fewest_cons_le c after) zs
  | replace before c d after => exact hbefore before (fewest_replace_le c d after) zs

theorem fewest_self (xs : List α) : fewest xs xs = 0 := by
  induction xs with
  | nil => simp
  | cons x xs ih => simp [fewest_cons_cons, ih]

theorem Script.fewest_le {n : Nat} {xs ys : List α} (h : Script n xs ys) (zs : List α) :
    fewest xs zs ≤ fewest ys zs + n := by
  induction h with
  | done => exact le_rfl
  | edit first _ ih =>
    have := first.fewest_le zs
    omega

/-- No script has fewer edits. -/
theorem Script.fewest_le_length {n : Nat} {xs ys : List α} (h : Script n xs ys) :
    fewest xs ys ≤ n := by
  have := h.fewest_le ys
  rwa [fewest_self, Nat.zero_add] at this

theorem fewest_comm (xs ys : List α) : fewest xs ys = fewest ys xs :=
  le_antisymm (script_fewest ys xs).symm.fewest_le_length
    (script_fewest xs ys).symm.fewest_le_length

/-! ## The rows -/

/-- The fewest edits from a text to another, and to each that goes on with more characters. -/
def fewestFrom (xs before : List α) : List α → List Nat
  | [] => [fewest xs before]
  | y :: ys => fewest xs before :: fewestFrom xs (y :: before) ys

theorem exists_fewestFrom_eq_cons (xs before ys : List α) :
    ∃ rest, fewestFrom xs before ys = fewest xs before :: rest := by
  cases ys with
  | nil => exact ⟨[], rfl⟩
  | cons y ys => exact ⟨fewestFrom xs (y :: before) ys, rfl⟩

theorem getLastD_fewestFrom (xs before ys : List α) (d : Nat) :
    (fewestFrom xs before ys).getLastD d = fewest xs (ys.reverse ++ before) := by
  induction ys generalizing before d with
  | nil => rfl
  | cons y ys ih =>
    rw [fewestFrom, List.getLastD_cons, ih]
    simp

/-- **A row comes from the one above**, where the texts so far stand in reverse. -/
theorem row_fewestFrom (x : α) (xs before ys : List α) :
    row x (fewest (x :: xs) before) (fewestFrom xs before ys) ys =
      fewestFrom (x :: xs) before ys := by
  induction ys generalizing before with
  | nil => rfl
  | cons y ys ih =>
    obtain ⟨rest, hrest⟩ := exists_fewestFrom_eq_cons xs (y :: before) ys
    have hrow := ih (y :: before)
    rw [fewest_cons_cons, hrest] at hrow
    rw [fewestFrom, fewestFrom, hrest, row, hrow]

/-- **The rows keep the fewest edits** from what was read of a text. -/
theorem lastRow_fewestFrom (read xs ys : List α) :
    lastRow read.length (fewestFrom read [] ys) xs ys =
      fewestFrom (xs.reverse ++ read) [] ys := by
  induction xs generalizing read with
  | nil => rfl
  | cons x xs ih =>
    have hrow := row_fewestFrom x read [] ys
    rw [fewest_nil_right] at hrow
    rw [lastRow, ← List.length_cons, hrow, ih (x :: read)]
    simp

theorem range_eq_fewestFrom (ys : List α) :
    List.range (ys.length + 1) = fewestFrom ([] : List α) [] ys := by
  have hfrom (before : List α) :
      List.range' before.length (ys.length + 1) = fewestFrom [] before ys := by
    induction ys generalizing before with
    | nil => simp [fewestFrom]
    | cons y ys ih =>
      rw [List.length_cons, List.range'_succ, fewestFrom, fewest_nil_left, ← ih]
      rfl
  rw [List.range_eq_range']
  exact hfrom []

theorem distanceToShorter_eq (xs ys : List α) :
    distanceToShorter xs ys = fewest xs.reverse ys.reverse := by
  rw [distanceToShorter]
  split
  · next h =>
    obtain rfl := List.length_eq_zero_iff.1 h
    simp
  · have hlast := lastRow_fewestFrom [] xs ys
    rw [List.length_nil] at hlast
    rw [range_eq_fewestFrom, hlast, getLastD_fewestFrom]
    simp

/-- **The rows give the fewest edits**, whichever text is the longer one. -/
theorem distance_eq_fewest (xs ys : List α) : distance xs ys = fewest xs.reverse ys.reverse := by
  rw [distance]
  split
  · rw [distanceToShorter_eq, fewest_comm]
  · exact distanceToShorter_eq xs ys

/-! ## The distance as a metric -/

/-- A script as long as the distance. -/
theorem script_distance (xs ys : List α) : Script (distance xs ys) xs ys := by
  have h := (script_fewest xs.reverse ys.reverse).reverse
  rwa [List.reverse_reverse, List.reverse_reverse, ← distance_eq_fewest] at h

/-- A script is at least as long as the distance. -/
theorem Script.distance_le {n : Nat} {xs ys : List α} (h : Script n xs ys) : distance xs ys ≤ n :=
  distance_eq_fewest xs ys ▸ h.reverse.fewest_le_length

theorem distance_comm (xs ys : List α) : distance xs ys = distance ys xs :=
  le_antisymm (script_distance ys xs).symm.distance_le (script_distance xs ys).symm.distance_le

theorem distance_triangle (xs ys zs : List α) :
    distance xs zs ≤ distance xs ys + distance ys zs :=
  ((script_distance xs ys).trans (script_distance ys zs)).distance_le

theorem distance_eq_zero_iff {xs ys : List α} : distance xs ys = 0 ↔ xs = ys := by
  constructor
  · intro h
    have := script_distance xs ys
    rw [h] at this
    exact this.eq_of_zero
  · rintro rfl
    exact Nat.le_zero.1 (Script.done xs).distance_le

/-- **The distance of two texts is the least number of edits that turn one into the other**, and so
it is a metric. -/
theorem isLeast_distance (xs ys : List α) :
    IsLeast {n | Script n xs ys} (distance xs ys) ∧
    distance xs ys = distance ys xs ∧
    (∀ zs, distance xs zs ≤ distance xs ys + distance ys zs) ∧
    (distance xs ys = 0 ↔ xs = ys) :=
  ⟨⟨script_distance xs ys, fun _ h => h.distance_le⟩, distance_comm xs ys,
    distance_triangle xs ys, distance_eq_zero_iff⟩

/-- Three edits are needed: two replacements and an insertion. -/
example : distance "kitten".toList "sitting".toList = 3 := by decide

end ValueDocs.EditDistance
