import Mathlib.Algebra.Group.Nat.Defs
import Mathlib.Data.List.Induction
import ValueDocs.Json.Print

/-!
# Proofs/Text/Numerals — a whole number that is read can be written

A text writes a number with no more digits than a number may have, each of them below ten.  So a
number that was read has no more digits either, and a message can show it
(`isWritable_of_integer`).
-/

namespace ValueDocs.Text

theorem digitValue?_lt {c : Char} {d : Nat} (h : digitValue? c = some d) : d < 10 := by
  obtain ⟨z, hz, rfl⟩ := Option.map_eq_some_iff.1 h
  have hbounds := List.find?_some hz
  simp only [Bool.and_eq_true, decide_eq_true_eq] at hbounds
  omega

theorem lt_of_leadingDigits? {s left : List Char} {digits : List Nat}
    (h : leadingDigits? s = some (digits, left)) : ∀ d ∈ digits, d < 10 := by
  induction s using leadingDigits?.induct generalizing digits with
  | case1 =>
    obtain ⟨rfl, -⟩ := Prod.mk.inj (Option.some.inj h)
    exact nofun
  | case2 => cases h
  | case3 c rest hc ih =>
    rw [leadingDigits?, if_pos hc] at h
    exact ih h
  | case4 c rest hc =>
    rw [leadingDigits?, if_neg hc] at h
    cases h
  | case5 c rest hlast hpair hnone =>
    rw [leadingDigits?.eq_4 c rest hlast hpair, hnone] at h
    obtain ⟨rfl, -⟩ := Prod.mk.inj (Option.some.inj h)
    exact nofun
  | case6 c rest hlast hpair d hd ih =>
    rw [leadingDigits?.eq_4 c rest hlast hpair, hd] at h
    obtain ⟨⟨ds, rest'⟩, hrest, heq⟩ := Option.map_eq_some_iff.1 h
    obtain ⟨rfl, rfl⟩ := Prod.mk.inj heq
    exact List.forall_mem_cons.2 ⟨digitValue?_lt hd, ih hrest⟩

/-- A number has no more digits than were written. -/
theorem ofDigits_lt {digits : List Nat} (h : ∀ d ∈ digits, d < 10) :
    ofDigits digits < 10 ^ digits.length := by
  induction digits using List.reverseRecOn with
  | nil => exact Nat.one_pos
  | append_singleton ds d ih =>
    have hd : d < 10 := h d (by simp)
    have hds := ih fun e he => h e (List.mem_append_left _ he)
    have hlast : ofDigits (ds ++ [d]) = 10 * ofDigits ds + d := by
      rw [ofDigits, List.foldl_append]
      rfl
    rw [hlast, List.length_append, List.length_singleton, Nat.pow_succ]
    omega

theorem lt_of_natural {s : List Char} {n : Nat} (h : natural s = .ok n) : n < 10 ^ digitLimit := by
  rw [natural] at h
  split at h
  · cases h
  · split at h
    · cases h
    next digits left hdigits =>
      split at h
      · cases h
      next hlimit =>
        split at h
        · obtain rfl := Except.ok.inj h
          exact Nat.lt_of_lt_of_le (ofDigits_lt (lt_of_leadingDigits? hdigits))
            (Nat.pow_le_pow_right (by decide) (Nat.le_of_not_lt hlimit))
        · cases h

/-- A sign leaves the digits of a number as they are. -/
theorem exists_of_sign {s : List Char} {n : Int} {sign : Int → Int}
    (hsign : ∀ m, (sign m).natAbs = m.natAbs) (h : Except.map sign (natural s) = .ok n) :
    ∃ m, natural s = .ok m ∧ n.natAbs = m := by
  cases hm : natural s with
  | error e =>
    rw [hm] at h
    cases h
  | ok m =>
    rw [hm] at h
    obtain rfl := Except.ok.inj h
    exact ⟨m, rfl, hsign m⟩

/-- **A whole number that is read can be written.** -/
theorem isWritable_of_integer {s : List Char} {n : Int} (h : integer s = .ok n) :
    (Json.int n).isWritable = true := by
  obtain ⟨rest, m, hm, habs⟩ : ∃ rest m, natural rest = .ok m ∧ n.natAbs = m := by
    rw [integer] at h
    split at h
    · exact ⟨_, exists_of_sign Int.natAbs_neg h⟩
    · exact ⟨_, exists_of_sign (fun _ => rfl) h⟩
    · exact ⟨_, exists_of_sign (fun _ => rfl) h⟩
  rw [Json.isWritable, habs, decide_eq_true_eq]
  exact (Nat.length_toDigits_le_iff (by decide) (by decide)).2 (lt_of_natural hm)

end ValueDocs.Text
