import Mathlib.Data.List.Sort

/-!
# Proofs/StableSort — what sorting by a key keeps

A stable sort keeps the order of items of one key, and this is all that it keeps: two sorted lists
with the same items at each key are the same (`eq_of_filter_key_eq`).  So a list has one stable
sort, and merge sort finds it (`IsStableSort.mergeSort`).
-/

namespace ValueDocs

variable {α κ : Type} [LinearOrder κ] {key : α → κ}

/-- The items of a list sorted by a key, those of one key as they stand in the list. -/
structure IsStableSort (key : α → κ) (xs sorted : List α) : Prop where
  perm : sorted.Perm xs
  ascending : sorted.Pairwise fun x y => key x ≤ key y
  stable : ∀ k, sorted.filter (key · = k) = xs.filter (key · = k)

/-- Two sorted lists with the same items at each key are the same. -/
theorem eq_of_filter_key_eq : ∀ {xs ys : List α}, xs.Pairwise (fun x y => key x ≤ key y) →
    ys.Pairwise (fun x y => key x ≤ key y) →
    (∀ k, xs.filter (key · = k) = ys.filter (key · = k)) → xs = ys
  | [], [], _, _, _ => rfl
  | [], y :: ys, _, _, h => by simpa using h (key y)
  | x :: xs, [], _, _, h => by simpa using h (key x)
  | x :: xs, y :: ys, hxs, hys, h => by
    have hx : x ∈ y :: ys := by
      refine List.mem_of_mem_filter (p := (key · = key x)) ?_
      rw [← h]
      simp
    have hy : y ∈ x :: xs := by
      refine List.mem_of_mem_filter (p := (key · = key y)) ?_
      rw [h]
      simp
    -- the first keys are the same, since each is the least of both lists
    have hleast {x y : α} {ys : List α} (hys : (y :: ys).Pairwise fun x y => key x ≤ key y)
        (hx : x ∈ y :: ys) : key y ≤ key x := by
      rcases List.mem_cons.1 hx with rfl | hx
      · exact le_rfl
      · exact (List.pairwise_cons.1 hys).1 x hx
    have hkey : key x = key y := (hleast hxs hy).antisymm (hleast hys hx)
    obtain rfl : x = y := by
      have := h (key x)
      rw [List.filter_cons_of_pos (by simp), List.filter_cons_of_pos (by simp [hkey])] at this
      exact (List.cons_eq_cons.1 this).1
    refine congrArg _ (eq_of_filter_key_eq hxs.of_cons hys.of_cons fun k => ?_)
    have := h k
    by_cases hk : key x = k
    · simpa [hk] using this
    · simpa [hk] using this

namespace IsStableSort

variable {xs ys zs : List α}

/-- **A list has one stable sort.** -/
theorem unique (h : IsStableSort key xs ys) (h' : IsStableSort key xs zs) : ys = zs :=
  eq_of_filter_key_eq h.ascending h'.ascending fun k => (h.stable k).trans (h'.stable k).symm

/-- **Merge sort is stable.** -/
theorem mergeSort {le : α → α → Bool} (hle : ∀ x y, le x y = true ↔ key x ≤ key y)
    (xs : List α) : IsStableSort key xs (xs.mergeSort le) := by
  have htrans (x y z : α) (hxy : le x y = true) (hyz : le y z = true) : le x z = true :=
    (hle x z).2 (((hle x y).1 hxy).trans ((hle y z).1 hyz))
  have htotal (x y : α) : (le x y || le y x) = true := by
    rw [Bool.or_eq_true, hle, hle]
    exact le_total _ _
  have hperm := List.mergeSort_perm xs le
  refine ⟨hperm, (List.pairwise_mergeSort htrans htotal xs).imp (hle _ _).1, fun k => ?_⟩
  have hkey : ∀ x ∈ xs.filter (key · = k), key x = k := fun x hx => by
    simpa using (List.mem_filter.1 hx).2
  have hsame : (xs.filter (key · = k)).Pairwise fun x y => le x y = true :=
    List.pairwise_of_forall_mem_list fun x hx y hy =>
      (hle x y).2 ((hkey x hx).trans (hkey y hy).symm).le
  have hsub : (xs.filter (key · = k)).Sublist ((xs.mergeSort le).filter (key · = k)) := by
    have := (List.sublist_mergeSort htrans htotal hsame List.filter_sublist).filter (key · = k)
    rwa [List.filter_eq_self.2 fun x hx => by simpa using hkey x hx] at this
  exact (hsub.eq_of_length (hperm.filter _).length_eq.symm).symm

end IsStableSort
end ValueDocs
