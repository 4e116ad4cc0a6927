import Mathlib.Data.List.TakeDrop
import ValueDocs.Json.Parse
import ValueDocs.Proofs.Json.Plain

/-!
# Proofs/Json/Tokens — texts and whole numbers are read back

A text in quotes is read back as it was, whatever its characters: each escape is the one of its
character (`readText_flatMap_escapeChar`).  A whole number is read back if it has no more digits than
a number may have and what follows does not go on with it (`unsignedNumber_toDigits`).
-/

namespace ValueDocs.Json

/-! ## Hexadecimal digits -/

theorem hexValue?_digitChar {d : Nat} (hd : d < 16) : hexValue? (Nat.digitChar d) = some d := by
  revert d
  decide

theorem unitDigits_eq {n : Nat} (hn : n < 0x10000) : unitDigits n =
    [Nat.digitChar (n / 4096), Nat.digitChar (n / 256 % 16), Nat.digitChar (n / 16 % 16),
      Nat.digitChar (n % 16)] := by
  have hone {n : Nat} (h : n < 16) : Nat.toDigits 16 n = [Nat.digitChar n] :=
    Nat.toDigits_of_lt_base h
  have hmore {n : Nat} (h : 16 ≤ n) :
      Nat.toDigits 16 n = Nat.toDigits 16 (n / 16) ++ [Nat.digitChar (n % 16)] :=
    Nat.toDigits_of_base_le (by decide) h
  rw [unitDigits, Binary64.padZeros]
  rcases Nat.lt_or_ge n 16 with h | h
  · rw [hone h, Nat.div_eq_of_lt (by omega : n < 4096), Nat.div_eq_of_lt (by omega : n < 256),
      Nat.div_eq_of_lt h, Nat.mod_eq_of_lt h]
    rfl
  rw [hmore h]
  rcases Nat.lt_or_ge n 256 with h' | h'
  · rw [hone (by omega), Nat.div_eq_of_lt (by omega : n < 4096), Nat.div_eq_of_lt h',
      Nat.mod_eq_of_lt (by omega : n / 16 < 16)]
    rfl
  rw [hmore (by omega : 16 ≤ n / 16), Nat.div_div_eq_div_mul]
  rcases Nat.lt_or_ge n 4096 with h'' | h''
  · rw [hone (by omega), Nat.div_eq_of_lt h'', Nat.mod_eq_of_lt (by omega : n / 256 < 16)]
    rfl
  rw [hmore (by omega : 16 ≤ n / (16 * 16)), Nat.div_div_eq_div_mul, hone (by omega)]
  rfl

/-- The digits of a unit are read as the unit. -/
theorem exists_unitDigits {n : Nat} (hn : n < 0x10000) :
    ∃ a b c d, unitDigits n = [a, b, c, d] ∧ ∀ rest, unit? (a :: b :: c :: d :: rest) = some n := by
  refine ⟨_, _, _, _, unitDigits_eq hn, fun rest => ?_⟩
  rw [unit?, hexValue?_digitChar (by omega), hexValue?_digitChar (by omega),
    hexValue?_digitChar (by omega), hexValue?_digitChar (by omega)]
  simp only [Option.pure_def, Option.bind_eq_bind, Option.bind_some, Option.some.injEq]
  omega

/-! ## Texts -/

variable {opening : Nat} {cs tail left : List Char}

/-- A text that is read to its end goes on for one character at least, the quote that ends it. -/
theorem length_pos_of_readText (h : readText opening tail = .ok (cs, left)) : 0 < tail.length :=
  List.length_pos_iff.2 <| by
    rintro rfl
    rw [readText] at h
    cases h

/-- An escaped unit that starts no pair is read as its character. -/
theorem readText_unit {n : Nat} (hn : n < 0x10000) (hpair : n < 0xd800 ∨ 0xe000 ≤ n)
    (h : readText opening tail = .ok (cs, left)) :
    readText opening ('\\' :: 'u' :: unitDigits n ++ tail) = .ok (Char.ofNat n :: cs, left) := by
  obtain ⟨a, b, c, d, hdigits, hunit⟩ := exists_unitDigits hn
  have htail := length_pos_of_readText h
  have hchar (rest : List Char) : readText.ofUnit rest n = .ok (Char.ofNat n) := by
    rw [readText.ofUnit, if_neg (by simp; omega)]
  have hfirst : ¬ (0xd800 ≤ n ∧ n < 0xdc00) := by omega
  rw [hdigits]
  simp only [List.cons_append, List.nil_append]
  rw [readText, if_neg (by simp only [List.length_cons]; omega), hunit]
  dsimp only
  split
  · next heq =>
    obtain ⟨-, -, -, -, rfl⟩ := by simpa using heq
    split
    · rw [if_neg (by simp only [Bool.and_eq_true, decide_eq_true_eq]; omega), h]
      simp [hchar, bind, Except.bind, pure, Except.pure]
    · rw [h]
      simp [hchar, bind, Except.bind, pure, Except.pure]
  · next heq =>
    obtain ⟨-, -, -, -, rfl⟩ := by simpa using heq
    rw [h]
    simp [hchar, bind, Except.bind, pure, Except.pure]
  · next heq => exact absurd rfl (heq _ _ _ _ _)

/-- Two escaped units that make up a pair are read as its character. -/
theorem readText_pair {m : Nat} (hm : m < 0x100000)
    (h : readText opening tail = .ok (cs, left)) :
    readText opening ('\\' :: 'u' :: unitDigits (0xd800 + m / 0x400) ++
      '\\' :: 'u' :: unitDigits (0xdc00 + m % 0x400) ++ tail) =
      .ok (Char.ofNat (0x10000 + m) :: cs, left) := by
  obtain ⟨a, b, c, d, hdigits, hunit⟩ :=
    exists_unitDigits (by omega : 0xd800 + m / 0x400 < 0x10000)
  obtain ⟨a', b', c', d', hdigits', hunit'⟩ :=
    exists_unitDigits (by omega : 0xdc00 + m % 0x400 < 0x10000)
  have htail := length_pos_of_readText h
  rw [hdigits, hdigits']
  simp only [List.cons_append, List.nil_append]
  rw [readText, if_neg (by simp), hunit]
  simp only [hunit']
  rw [if_pos (by simp [List.ne_nil_of_length_pos htail]; omega), h]
  have hvalue : 0x10000 + (0xd800 + m / 0x400 - 0xd800) * 0x400 + (0xdc00 + m % 0x400 - 0xdc00) =
      0x10000 + m := by omega
  rw [hvalue]
  rfl

/-- The escape of a character outside the printable range is read back. -/
theorem readText_escapeUnits (c : Char) (h : readText opening tail = .ok (cs, left)) :
    readText opening (escapeUnits c ++ tail) = .ok (c :: cs, left) := by
  have hvalid : c.toNat < 0xd800 ∨ 0xdfff < c.toNat ∧ c.toNat < 0x110000 := c.valid
  rw [escapeUnits]
  dsimp only
  split
  · next hshort =>
    rw [readText_unit hshort (by omega) h, Char.ofNat_toNat]
  · next hlong =>
    rw [readText_pair (by omega) h, show 0x10000 + (c.toNat - 0x10000) = c.toNat by omega,
      Char.ofNat_toNat]

/-- A written character is read back. -/
theorem readText_escapeChar (c : Char) (h : readText opening tail = .ok (cs, left)) :
    readText opening (escapeChar c ++ tail) = .ok (c :: cs, left) := by
  have hletter {e : Char} (he : e ≠ 'u') {d : Char} (hd : escaped? e = some d) :
      readText opening (['\\', e] ++ tail) = .ok (d :: cs, left) := by
    rw [List.cons_append, List.cons_append, List.nil_append, readText, hd]
    · dsimp only
      rw [h]
      rfl
    · exact fun heq => he heq
  rw [escapeChar.eq_def]
  split
  · exact hletter (by decide) rfl
  · exact hletter (by decide) rfl
  · exact hletter (by decide) rfl
  · exact hletter (by decide) rfl
  · exact hletter (by decide) rfl
  · exact hletter (by decide) rfl
  · exact hletter (by decide) rfl
  · next hquote hslash _ _ _ _ _ =>
    split
    · next hrange =>
      rw [Bool.and_eq_true, decide_eq_true_eq, decide_eq_true_eq] at hrange
      rw [List.cons_append, List.nil_append, readText, if_neg (by omega), h]
      · rfl
      all_goals simp_all
    · exact readText_escapeUnits c h

/-- **A text in quotes is read back.** -/
theorem readText_flatMap_escapeChar (s rest : List Char) :
    readText opening (s.flatMap escapeChar ++ '"' :: rest) = .ok (s, rest) := by
  induction s with
  | nil => rw [List.flatMap_nil, List.nil_append, readText]
  | cons c s ih =>
    rw [List.flatMap_cons, List.append_assoc]
    exact readText_escapeChar c ih

/-! ## Whole numbers -/

/-- Whether a text does not go on with a number before it. -/
def Stops (rest : List Char) : Prop :=
  ∀ c ∈ rest.head?, isAsciiDigit c = false ∧ c ≠ '.' ∧ c ≠ 'e' ∧ c ≠ 'E'

theorem stops_nil : Stops [] := by simp [Stops]

theorem stops_cons {c : Char} (h : isAsciiDigit c = false ∧ c ≠ '.' ∧ c ≠ 'e' ∧ c ≠ 'E')
    (rest : List Char) : Stops (c :: rest) := by
  simpa [Stops] using h

theorem isAsciiDigit_of_mem_toDigits {n : Nat} {c : Char} (h : c ∈ Nat.toDigits 10 n) :
    isAsciiDigit c = true := by
  obtain ⟨d, hd, rfl⟩ := exists_digit_of_mem_toDigits (by decide) h
  clear h
  revert d
  decide

theorem ofAsciiDigits_toDigits (n : Nat) : ofAsciiDigits (Nat.toDigits 10 n) = n :=
  Nat.ofDigitChars_ten_toDigits

/-- The first digit of a positive number is not zero. -/
theorem head?_toDigits_ne_zero {n : Nat} (hn : n ≠ 0) : (Nat.toDigits 10 n).head? ≠ some '0' := by
  induction n using Nat.strongRecOn with
  | _ n ih =>
    rw [Nat.toDigits_eq_if (by decide)]
    split
    · next hlt =>
      have hdigit : ∀ d < 10, d ≠ 0 → [Nat.digitChar d].head? ≠ some '0' := by decide
      exact hdigit n hlt hn
    · next hge =>
      intro h
      rw [List.head?_append, Option.or_eq_some_iff] at h
      rcases h with hhead | ⟨hnone, -⟩
      · exact ih _ (by omega) (by omega) hhead
      · exact Nat.toDigits_ne_nil (List.head?_eq_none_iff.1 hnone)

theorem span_digits {ds rest : List Char} (hds : ∀ c ∈ ds, isAsciiDigit c = true)
    (hrest : Stops rest) : (ds ++ rest).span isAsciiDigit = (ds, rest) := by
  rw [List.span_eq_takeWhile_dropWhile, List.takeWhile_append_of_pos hds,
    List.dropWhile_append_of_pos hds]
  cases rest with
  | nil => simp
  | cons c rest => simp [(hrest c rfl).1]

theorem wholePart?_toDigits (n : Nat) {rest : List Char} (hrest : Stops rest) :
    wholePart? (Nat.toDigits 10 n ++ rest) = some (Nat.toDigits 10 n, rest) := by
  by_cases hn : n = 0
  · subst hn
    rfl
  · have hspan := span_digits (fun c => isAsciiDigit_of_mem_toDigits (n := n)) hrest
    have hhead := head?_toDigits_ne_zero hn
    have hne : Nat.toDigits 10 n ≠ [] := Nat.toDigits_ne_nil
    revert hspan hhead hne
    generalize Nat.toDigits 10 n = ds
    intro hspan hhead hne
    cases ds with
    | nil => exact absurd rfl hne
    | cons d ds =>
      rw [List.cons_append] at hspan ⊢
      rw [wholePart?, hspan]
      exact fun _ h => hhead (by rw [(List.cons.inj h).1]; rfl)

/-- **A whole number is read back.** -/
theorem unsignedNumber_toDigits {n : Nat} (hn : (Nat.toDigits 10 n).length ≤ Text.digitLimit)
    (left : Nat) (negative : Bool) {rest : List Char} (hrest : Stops rest) :
    unsignedNumber left negative (Nat.toDigits 10 n ++ rest) =
      .ok (.int (if negative then -n else n), rest) := by
  have hfraction : fraction rest = ([], rest) := by
    cases rest with
    | nil => rfl
    | cons c rest =>
      rw [fraction.eq_def]
      split
      · next heq => exact absurd (List.cons.inj heq).1 (hrest c rfl).2.1
      · rfl
  have hexponent : exponentPart rest = (none, rest) := by
    cases rest with
    | nil => rfl
    | cons c rest => exact if_neg (not_or.2 (hrest c rfl).2.2)
  rw [unsignedNumber, wholePart?_toDigits n hrest]
  dsimp only
  rw [hfraction]
  dsimp only
  rw [hexponent]
  dsimp only
  rw [if_pos (by decide), if_neg (Nat.not_lt.2 hn), ofAsciiDigits_toDigits]

end ValueDocs.Json
