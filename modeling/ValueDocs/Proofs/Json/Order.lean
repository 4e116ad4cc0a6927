import Mathlib.Data.List.Pairwise
import Mathlib.Data.String.Basic
import ValueDocs.Json.Order

/-!
# Proofs/Json/Order — sorting by keys that need not have an order

Two trees that have an order are equal, or one of them comes before the other, unless something in
them is no number.  So things end up in order if their keys have an order and hold numbers only
(`Json.pairwise_sortOn`), and sorting them again changes nothing.  Keys that are compared as other
things are sort as those do (`Json.sortedOn_map`).
-/

namespace ValueDocs

/-! ## Magnitudes and marks -/

namespace Magnitude

theorem before_trans {a b c : Magnitude} (h : a.before b = true) (h' : b.before c = true) :
    a.before c = true := by
  cases a <;> cases b <;> cases c <;> simp_all [before]
  exact Std.lt_trans (α := Rat) h h'

theorem before_of_not_before {a b : Magnitude} (hne : a ≠ b) (h : a.before b = false) :
    b.before a = true := by
  cases a <;> cases b <;> simp_all [before]
  next p q =>
    have hle : q ≤ p := Rat.not_lt.1 (Bool.eq_false_iff.1 h)
    exact Std.lt_of_le_of_ne hle (Ne.symm hne)

theorem not_before_of_before {a b : Magnitude} (h : a.before b = true) : b.before a = false := by
  cases a <;> cases b <;> simp_all [before]
  next p q => exact Bool.eq_false_iff.2 (Rat.not_lt.2 (Std.le_of_lt (α := Rat) h))

end Magnitude

namespace Mark

variable {a b c : Atom} {k m n : Mark}

theorem beforeAtom?_trans (h : beforeAtom? a b = some true) (h' : beforeAtom? b c = some true) :
    beforeAtom? a c = some true := by
  cases a <;> cases b <;> cases c <;> simp_all [beforeAtom?, -String.lt_iff_ltb]
  · exact Magnitude.before_trans h h'
  · exact String.lt_trans h h'

theorem beforeAtom?_of_not_before (hne : a ≠ b) (ha : a ≠ .notANumber) (hb : b ≠ .notANumber)
    (h : beforeAtom? a b = some false) : beforeAtom? b a = some true := by
  cases a <;> cases b <;> simp_all [beforeAtom?, -String.lt_iff_ltb]
  · exact Magnitude.before_of_not_before hne h
  · exact Std.lt_of_le_of_ne h (Ne.symm hne)

theorem beforeAtom?_of_before (h : beforeAtom? a b = some true) :
    beforeAtom? b a = some false := by
  cases a <;> cases b <;> simp_all [beforeAtom?, -String.lt_iff_ltb]
  · exact Magnitude.not_before_of_before h
  · exact Std.le_of_lt h

theorem isSome_beforeAtom?_comm (a b : Atom) :
    (beforeAtom? a b).isSome = (beforeAtom? b a).isSome := by
  cases a <;> cases b <;> rfl

theorem before?_eq_some_iff {m n : Mark} {earlier : Bool} : m.before? n = some earlier ↔
    m.bare = true ∧ n.bare = true ∧ beforeAtom? m.atom n.atom = some earlier := by
  rw [before?]
  cases m.bare <;> cases n.bare <;> simp

/-- Of two different marks that have an order one comes before the other, if both are numbers where
they are not texts. -/
theorem before?_of_not_before (hne : m ≠ n) (hm : m.atom ≠ .notANumber)
    (hn : n.atom ≠ .notANumber) (h : m.before? n = some false) : n.before? m = some true := by
  obtain ⟨hmb, hnb, hatom⟩ := before?_eq_some_iff.1 h
  have hatoms : m.atom ≠ n.atom := fun heq => hne <| by
    cases m
    cases n
    simp_all
  exact before?_eq_some_iff.2 ⟨hnb, hmb, beforeAtom?_of_not_before hatoms hm hn hatom⟩

theorem before?_trans (h : k.before? m = some true) (h' : m.before? n = some true) :
    k.before? n = some true := by
  obtain ⟨hk, -, hatom⟩ := before?_eq_some_iff.1 h
  obtain ⟨-, hn, hatom'⟩ := before?_eq_some_iff.1 h'
  exact before?_eq_some_iff.2 ⟨hk, hn, beforeAtom?_trans hatom hatom'⟩

theorem before?_of_before (h : m.before? n = some true) : n.before? m = some false := by
  obtain ⟨hm, hn, hatom⟩ := before?_eq_some_iff.1 h
  exact before?_eq_some_iff.2 ⟨hn, hm, beforeAtom?_of_before hatom⟩

theorem isSome_before?_comm (m n : Mark) : (m.before? n).isSome = (n.before? m).isSome := by
  rw [before?, before?, Bool.and_comm]
  split
  · exact isSome_beforeAtom?_comm _ _
  · rfl

/-! ## Lists of marks -/

theorem isSome_listBefore?_comm (ms ns : List Mark) :
    (listBefore? ms ns).isSome = (listBefore? ns ms).isSome := by
  induction ms generalizing ns with
  | nil => cases ns <;> rfl
  | cons m ms ih =>
    cases ns with
    | nil => rfl
    | cons n ns =>
      rw [listBefore?, listBefore?]
      by_cases h : m = n
      · rw [if_pos h, if_pos h.symm, ih]
      · rw [if_neg h, if_neg (Ne.symm h), isSome_before?_comm]

@[simp] theorem listBefore?_self (ms : List Mark) : listBefore? ms ms = some false := by
  induction ms with
  | nil => rfl
  | cons m ms ih => rw [listBefore?, if_pos rfl, ih]

/-- A list of marks that comes before another does not come after it. -/
theorem listBefore?_of_before {ms ns : List Mark} (h : listBefore? ms ns = some true) :
    listBefore? ns ms = some false := by
  induction ms generalizing ns with
  | nil => cases ns <;> cases h
  | cons m ms ih =>
    cases ns with
    | nil => cases h
    | cons n ns =>
      rw [listBefore?] at h ⊢
      split at h
      · next heq => rw [if_pos heq.symm, ih h]
      · next hne => rw [if_neg (Ne.symm hne), before?_of_before h]

/-- **Not to come before is transitive** for lists of marks that are numbers where they are not
texts. -/
theorem listBefore?_not_before_trans {ks ms ns : List Mark} (hk : ∀ k ∈ ks, k.atom ≠ .notANumber)
    (hm : ∀ m ∈ ms, m.atom ≠ .notANumber) (hn : ∀ n ∈ ns, n.atom ≠ .notANumber)
    (h : listBefore? ks ms = some false) (h' : listBefore? ms ns = some false) :
    listBefore? ks ns = some false := by
  induction ms generalizing ks ns with
  | nil =>
    cases ks with
    | nil => exact h'
    | cons => cases h
  | cons m ms ih =>
    cases ks with
    | nil => cases h
    | cons k ks =>
      cases ns with
      | nil => cases h'
      | cons n ns =>
        obtain ⟨hk₁, hks⟩ := List.forall_mem_cons.1 hk
        obtain ⟨hm₁, hms⟩ := List.forall_mem_cons.1 hm
        obtain ⟨hn₁, hns⟩ := List.forall_mem_cons.1 hn
        rw [listBefore?] at h h' ⊢
        by_cases hkm : k = m <;> by_cases hmn : m = n
        · rw [if_pos hkm] at h
          rw [if_pos hmn] at h'
          rw [if_pos (hkm.trans hmn)]
          exact ih hks hms hns h h'
        · rw [if_neg hmn] at h'
          rw [hkm, if_neg hmn, h']
        · rw [if_neg hkm] at h
          rw [← hmn, if_neg hkm, h]
        · rw [if_neg hkm] at h
          rw [if_neg hmn] at h'
          -- all three differ or the outer two are equal, which the middle one rules out
          have hbefore : n.before? k = some true :=
            before?_trans (before?_of_not_before hmn hm₁ hn₁ h')
              (before?_of_not_before hkm hk₁ hm₁ h)
          have hkn : k ≠ n := by
            rintro rfl
            cases hbefore.symm.trans (before?_of_before hbefore)
          rw [if_neg hkn, before?_of_before hbefore]

end Mark

/-! ## Trees -/

namespace Json

/-- Whether everything in a tree that counts as a number is one. -/
def IsDefinite (j : Json) : Prop := ∀ m ∈ j.marks true, m.atom ≠ .notANumber

variable {a b c : Json}

theorem before?_eq_some_iff {earlier : Bool} : a.before? b = some earlier ↔
    a.hasOrder = true ∧ b.hasOrder = true ∧
      Mark.listBefore? (a.marks true) (b.marks true) = some earlier := by
  rw [before?]
  cases a.hasOrder <;> cases b.hasOrder <;> simp

theorem isSome_before?_comm (a b : Json) : (a.before? b).isSome = (b.before? a).isSome := by
  rw [before?, before?, Bool.and_comm]
  split
  · exact Mark.isSome_listBefore?_comm _ _
  · rfl

theorem before_eq_false_of_before (h : a.before b = true) : b.before a = false := by
  rw [before, Option.getD_eq_iff] at h
  obtain h | ⟨-, h⟩ := h
  · obtain ⟨ha, hb, hmarks⟩ := before?_eq_some_iff.1 h
    rw [before, before?_eq_some_iff.2 ⟨hb, ha, Mark.listBefore?_of_before hmarks⟩]
    rfl
  · cases h

@[simp] theorem before_self (a : Json) : a.before a = false :=
  Bool.eq_false_iff.2 fun h => by simp [before_eq_false_of_before h] at h

/-- Of two trees that have an order, what is not before is at most as late. -/
theorem before?_eq_some_before (h : (a.before? b).isSome = true) :
    a.before? b = some (a.before b) := by
  obtain ⟨earlier, hearlier⟩ := Option.isSome_iff_exists.1 h
  rw [before, hearlier, Option.getD_some]

theorem not_before_trans (ha : a.IsDefinite) (hb : b.IsDefinite) (hc : c.IsDefinite)
    (hab : (a.before? b).isSome = true) (hbc : (b.before? c).isSome = true)
    (h : a.before b = false) (h' : b.before c = false) : a.before c = false := by
  have hsome := before?_eq_some_before hab
  have hsome' := before?_eq_some_before hbc
  rw [h] at hsome
  rw [h'] at hsome'
  obtain ⟨horder, -, hmarks⟩ := before?_eq_some_iff.1 hsome
  obtain ⟨-, horder', hmarks'⟩ := before?_eq_some_iff.1 hsome'
  rw [before, before?_eq_some_iff.2
    ⟨horder, horder', Mark.listBefore?_not_before_trans ha hb hc hmarks hmarks'⟩]
  rfl

/-! ## Arrays of texts and numbers -/

section Arrays

variable {as bs : List Json} {m n : Mark}

theorem before?_arr_nil : (arr []).before? (arr []) = some false := by decide

/-- Arrays are compared item by item, if their items are no arrays or objects. -/
theorem before?_arr_cons (ha : a.marks true = [m]) (hb : b.marks true = [n]) :
    (arr (a :: as)).before? (arr (b :: bs)) =
      if m = n then (arr as).before? (arr bs) else m.before? n := by
  simp only [before?, hasOrder, Bool.and_true, if_true, marks, itemMarks, ha, hb,
    List.cons_append, List.nil_append, Mark.listBefore?]

theorem before?_arr_str (s t : String) : (arr (str s :: as)).before? (arr (str t :: bs)) =
    if s = t then (arr as).before? (arr bs) else some (decide (s < t)) := by
  rw [before?_arr_cons (m := ⟨.text s, true⟩) (n := ⟨.text t, true⟩) (by rw [marks])
    (by rw [marks])]
  simp [Mark.before?, Mark.beforeAtom?]

/-- Numbers in arrays are compared by their values. -/
theorem before?_arr_number {p q : Rat} (ha : a.marks true = [⟨.number (.finite p), true⟩])
    (hb : b.marks true = [⟨.number (.finite q), true⟩]) :
    (arr (a :: as)).before? (arr (b :: bs)) =
      if p = q then (arr as).before? (arr bs) else some (p.blt q) := by
  rw [before?_arr_cons ha hb]
  simp [Mark.before?, Mark.beforeAtom?, Magnitude.before]

theorem ofInt_inj {a b : Int} : Rat.ofInt a = Rat.ofInt b ↔ a = b := Rat.intCast_inj

theorem blt_ofInt (a b : Int) : (Rat.ofInt a).blt (Rat.ofInt b) = decide (a < b) := by
  rw [Bool.eq_iff_iff, decide_eq_true_iff]
  exact Rat.intCast_lt_intCast

theorem before?_arr_int (a b : Int) : (arr (int a :: as)).before? (arr (int b :: bs)) =
    if a = b then (arr as).before? (arr bs) else some (decide (a < b)) := by
  rw [before?_arr_number (by rw [marks]) (by rw [marks]), blt_ofInt]
  simp only [ofInt_inj]

theorem before?_arr_bool (a b : Bool) : (arr (bool a :: as)).before? (arr (bool b :: bs)) =
    if a = b then (arr as).before? (arr bs) else some b := by
  rw [before?_arr_number (by rw [marks]) (by rw [marks]), blt_ofInt]
  cases a <;> cases b <;> simp [ofInt_inj]

end Arrays

/-! ## Sorting -/

section Sorting

variable {α β : Type} {key : α → Json} {xs ys : List α}

theorem areComparable_iff {js : List Json} :
    areComparable js = true ↔ js.Pairwise fun j k => (j.before? k).isSome = true := by
  induction js with
  | nil => simp [areComparable]
  | cons j js ih => simp [areComparable, List.pairwise_cons, ih]

theorem areComparable_of_perm (h : xs.Perm ys) :
    areComparable (xs.map key) = areComparable (ys.map key) := by
  rw [Bool.eq_iff_iff, areComparable_iff, areComparable_iff]
  refine (h.map key).pairwise_iff fun hjk => ?_
  rw [isSome_before?_comm, hjk]

theorem sortedOn_eq_ok_iff : sortedOn key xs = .ok ys ↔
    areComparable (xs.map key) = true ∧ sortOn key xs = ys := by
  rw [sortedOn]
  split
  · next h => simp [h]
  · next h => simp [h]

theorem sortOn_perm (key : α → Json) (xs : List α) : (sortOn key xs).Perm xs :=
  List.mergeSort_perm _ _

/-- **Things are in order** once they are sorted, if their keys have an order and hold numbers. -/
theorem pairwise_sortOn (h : areComparable (xs.map key) = true)
    (hdefinite : ∀ x ∈ xs, (key x).IsDefinite) :
    (sortOn key xs).Pairwise fun x y => (key y).before (key x) = false := by
  have hpairs : xs.Pairwise fun x y => ((key x).before? (key y)).isSome = true :=
    List.pairwise_map.1 (areComparable_iff.1 h)
  have hsymm : Std.Symm fun x y => ((key x).before? (key y)).isSome = true :=
    ⟨fun x y hxy => by rw [isSome_before?_comm, hxy]⟩
  -- the order is one on the things of the list only
  let le (x y : {x // x ∈ xs}) : Bool := !(key y.1).before (key x.1)
  have hsorted : (xs.attach.mergeSort le).Pairwise fun x y => le x y = true := by
    refine List.pairwise_mergeSort (fun x y z hxy hyz => ?_) (fun x y => ?_) _
    · by_cases hne : x.1 = y.1
      · simpa only [le, hne] using hyz
      by_cases hne' : y.1 = z.1
      · simpa only [le, hne'] using hxy
      simp only [le, Bool.not_eq_true'] at hxy hyz ⊢
      exact not_before_trans (hdefinite _ z.2) (hdefinite _ y.2) (hdefinite _ x.2)
        (hpairs.forall z.2 y.2 (Ne.symm hne')) (hpairs.forall y.2 x.2 (Ne.symm hne)) hyz hxy
    · cases hxy : (key y.1).before (key x.1) with
      | false => simp [le, hxy]
      | true => simp [le, before_eq_false_of_before hxy]
  have hmap : (xs.attach.mergeSort le).map Subtype.val = sortOn key xs := by
    rw [sortOn, List.map_mergeSort (s := fun x y => !(key y).before (key x)) fun _ _ _ _ => rfl,
      List.attach_map_subtype_val]
  rw [← hmap, List.pairwise_map]
  exact hsorted.imp fun hxy => by simpa [le] using hxy

/-- What is sorted stays as it is when it is sorted again. -/
theorem sortedOn_of_sortedOn (h : sortedOn key xs = .ok ys)
    (hdefinite : ∀ x ∈ xs, (key x).IsDefinite) : sortedOn key ys = .ok ys := by
  obtain ⟨hcomparable, rfl⟩ := sortedOn_eq_ok_iff.1 h
  refine sortedOn_eq_ok_iff.2 ⟨?_, List.mergeSort_of_pairwise ?_⟩
  · rw [areComparable_of_perm (sortOn_perm key xs), hcomparable]
  · exact (pairwise_sortOn hcomparable hdefinite).imp fun hxy => by simpa using hxy

/-- **Keys that are compared as other things are** sort as those do. -/
theorem sortedOn_map {f : β → α} {le : β → β → Bool} {bs : List β}
    (h : ∀ a ∈ bs, ∀ b ∈ bs, (key (f b)).before? (key (f a)) = some (!le a b)) :
    sortedOn key (bs.map f) = .ok ((bs.mergeSort le).map f) := by
  refine sortedOn_eq_ok_iff.2 ⟨?_, ?_⟩
  · rw [areComparable_iff, List.map_map, List.pairwise_map]
    refine List.pairwise_of_forall_mem_list fun a ha b hb => ?_
    rw [Function.comp_apply, Function.comp_apply, h b hb a ha, Option.isSome_some]
  · rw [sortOn, List.map_mergeSort fun a ha b hb => ?_]
    rw [before, h a ha b hb, Option.getD_some, Bool.not_not]

end Sorting
end Json
end ValueDocs
