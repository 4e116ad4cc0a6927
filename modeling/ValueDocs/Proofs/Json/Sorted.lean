import Mathlib.Data.String.Basic
import ValueDocs.DiagnosticLog
import ValueDocs.Proofs.Json.RoundTrip
import ValueDocs.Proofs.Table

/-!
# Proofs/Json/Sorted — trees with their fields in order

Putting the fields of all objects in order changes nothing of what is found under a name, if the
names are distinct (`field_sorted`, `get_sorted`), and an ordinary tree stays ordinary.  So a tree
that is written on one line is read back with its fields in order (`IsOrdinary.readsBack`).
-/

namespace ValueDocs.Json

/-! ## Fields -/

@[simp] theorem sorted_null : null.sorted = null := by simp [sorted]

@[simp] theorem sorted_int (n : Int) : (int n).sorted = int n := by simp [sorted]

@[simp] theorem sorted_str (s : String) : (str s).sorted = str s := by simp [sorted]

@[simp] theorem sorted_arr_nil : (arr []).sorted = arr [] := by rw [sorted, sortedItems]

@[simp] theorem sorted_ofText? (t : Option String) : (ofText? t).sorted = ofText? t := by
  cases t <;> simp [ofText?]

theorem sortedItems_eq (js : List Json) : sortedItems js = js.map sorted := by
  induction js with
  | nil => rfl
  | cons j js ih => rw [sortedItems, ih, List.map_cons]

theorem sortedFields_eq (fs : Fields) : sortedFields fs = fs.map fun f => (f.1, sorted f.2) := by
  induction fs with
  | nil => rfl
  | cons f fs ih =>
    obtain ⟨k, j⟩ := f
    rw [sortedFields, ih, List.map_cons]

/-- The fields of a sorted object are those of the object, sorted themselves, in some order. -/
theorem exists_sorted_obj (fs : Fields) :
    ∃ gs, (obj fs).sorted = obj gs ∧ gs.Perm (fs.map fun f => (f.1, sorted f.2)) :=
  ⟨_, rfl, sortedFields_eq fs ▸ List.mergeSort_perm _ _⟩

theorem lookup_map_sorted (fs : Fields) (name : String) :
    (fs.map fun f => (f.1, sorted f.2)).lookup name = (fs.lookup name).map sorted := by
  induction fs with
  | nil => rfl
  | cons f fs ih =>
    obtain ⟨k, j⟩ := f
    rw [List.map_cons, List.lookup_cons, List.lookup_cons, ih]
    cases name == k <;> rfl

mutual

/-- **Fields that are in order stay as they are.** -/
theorem sorted_sorted : ∀ j : Json, j.sorted.sorted = j.sorted
  | null | bool _ | int _ | float _ | str _ => by simp [sorted]
  | arr js => by rw [sorted, sorted, sortedItems_sortedItems]
  | obj fs => by
    have hfields (f) (hf : f ∈ (sortedFields fs).mergeSort fun a b => decide (a.1 ≤ b.1)) :
        (f.1, f.2.sorted) = f := by
      rw [List.mem_mergeSort, sortedFields_eq] at hf
      obtain ⟨g, hg, rfl⟩ := List.mem_map.1 hf
      rw [sorted_sorted_of_mem fs g hg]
    rw [sorted, sorted, sortedFields_eq, List.map_congr_left hfields, List.map_id',
      List.mergeSort_of_pairwise]
    exact List.pairwise_mergeSort (by simpa using fun a b c => le_trans)
      (by simpa using fun a b => le_total _ _) _

theorem sortedItems_sortedItems : ∀ js : List Json, sortedItems (sortedItems js) = sortedItems js
  | [] => rfl
  | j :: js => by rw [sortedItems, sortedItems, sorted_sorted j, sortedItems_sortedItems js]

theorem sorted_sorted_of_mem : ∀ (fs : Fields), ∀ f ∈ fs, f.2.sorted.sorted = f.2.sorted
  | [], _, hf => by cases hf
  | (_, j) :: fs, f, hf => by
    rcases List.mem_cons.1 hf with rfl | hf
    · exact sorted_sorted j
    · exact sorted_sorted_of_mem fs f hf

end

/-- Objects with the same fields, in order within, are the same in order. -/
theorem sorted_obj_congr {fs gs : Fields}
    (h : fs.map (fun f => (f.1, f.2.sorted)) = gs.map fun f => (f.1, f.2.sorted)) :
    (obj fs).sorted = (obj gs).sorted := by
  rw [sorted, sorted, sortedFields_eq, sortedFields_eq, h]

section

variable {fs : Fields} (h : (fs.map (·.1)).Nodup)

include h

theorem exists_lookup_sorted :
    ∃ gs, (obj fs).sorted = obj gs ∧ ∀ name, gs.lookup name = (fs.lookup name).map sorted := by
  obtain ⟨gs, hgs, hperm⟩ := exists_sorted_obj fs
  have hnames : (gs.map (·.1)).Nodup := by
    refine (hperm.map _).nodup_iff.2 ?_
    rw [List.map_map]
    exact h
  exact ⟨gs, hgs, fun name => by rw [lookup_eq_of_perm hperm hnames, lookup_map_sorted]⟩

/-- **A required field of a sorted object** is that of the object, sorted. -/
theorem field_sorted (name : String) :
    (obj fs).sorted.field name = ((obj fs).field name).map sorted := by
  obtain ⟨gs, hgs, hlookup⟩ := exists_lookup_sorted h
  rw [hgs, field, field, hlookup]
  cases fs.lookup name <;> rfl

/-- **An optional field of a sorted object** is that of the object, sorted. -/
theorem get_sorted (name : String) {default : Json} (hdefault : default.sorted = default) :
    (obj fs).sorted.get name default = ((obj fs).get name default).map sorted := by
  obtain ⟨gs, hgs, hlookup⟩ := exists_lookup_sorted h
  rw [hgs, get, get, get?, get?, hlookup]
  change Except.ok (((fs.lookup name).map sorted).getD default) =
    Except.ok (sorted ((fs.lookup name).getD default))
  cases fs.lookup name with
  | none => exact congrArg Except.ok hdefault.symm
  | some j => rfl

end

/-! ## Ordinary trees -/

theorem areOrdinaryFields_iff {fs : Fields} :
    AreOrdinaryFields fs ↔ ∀ f ∈ fs, f.2.IsOrdinary := by
  induction fs with
  | nil => exact iff_of_true trivial (List.forall_mem_nil _)
  | cons f fs ih =>
    rw [List.forall_mem_cons, ← ih]
    rfl

mutual

/-- **An ordinary tree stays ordinary.** -/
theorem IsOrdinary.sorted : ∀ {j : Json}, j.IsOrdinary → j.sorted.IsOrdinary
  | null, _ => trivial
  | bool _, _ => trivial
  | int _, h => h
  | float _, h => h
  | str _, _ => trivial
  | arr _, h => AreOrdinary.sortedItems h
  | obj fs, h => by
    have hsorted := AreOrdinaryFields.sortedFields h.2
    obtain ⟨gs, hgs, hperm⟩ := exists_sorted_obj fs
    rw [sortedFields_eq, areOrdinaryFields_iff] at hsorted
    rw [hgs]
    refine ⟨(hperm.map _).nodup_iff.2 ?_, areOrdinaryFields_iff.2 fun f hf =>
      hsorted f (hperm.subset hf)⟩
    rw [List.map_map]
    exact h.1

theorem AreOrdinary.sortedItems : ∀ {js : List Json}, AreOrdinary js → AreOrdinary (sortedItems js)
  | [], _ => trivial
  | _ :: _, h => ⟨IsOrdinary.sorted h.1, AreOrdinary.sortedItems h.2⟩

theorem AreOrdinaryFields.sortedFields :
    ∀ {fs : Fields}, AreOrdinaryFields fs → AreOrdinaryFields (sortedFields fs)
  | [], _ => trivial
  | _ :: _, h => ⟨IsOrdinary.sorted h.1, AreOrdinaryFields.sortedFields h.2⟩

end

theorem written_eq_ok_iff {j : Json} {line : String} :
    j.written = .ok line ↔ j.isWritable = true ∧ j.sorted.compact = line := by
  rw [written]
  split
  · next h => simp [h]
  · next h => simp [h]

/-- Whether a tree is read back from its line, with its fields in order. -/
def ReadsBack (j : Json) : Prop :=
  ∀ line, j.written = .ok line → parseChars line.toList = .ok j.sorted

/-- **An ordinary tree on one line** is read back with its fields in order. -/
theorem IsOrdinary.readsBack {j : Json} (h : j.IsOrdinary) : j.ReadsBack := by
  intro line hline
  obtain ⟨-, rfl⟩ := written_eq_ok_iff.1 hline
  rw [compact, String.toList_ofList]
  exact parseChars_print _ h.sorted

end ValueDocs.Json
