import ValueDocs.Text.Lines
import ValueDocs.Text.Utf8

/-!
# Proofs/Text/Plain — texts that files keep as they are

A text of ASCII characters without carriage returns is one byte a character, and reading these bytes
back, with line breaks made line feeds, gives the text (`decode_encode`, `normalizeBreaks_eq`).
-/

namespace ValueDocs.Text

/-- Whether a character is ASCII and no carriage return. -/
def IsPlain (c : Char) : Prop := c.toNat < 0x80 ∧ c ≠ '\r'

instance (c : Char) : Decidable (IsPlain c) := inferInstanceAs (Decidable (_ ∧ _))

/-- A text made of plain characters. -/
def ArePlain (s : List Char) : Prop := ∀ c ∈ s, IsPlain c

-- Decided along the text: the other instance for `∀ c` goes through every character there is.
instance (s : List Char) : Decidable (ArePlain s) := List.decidableBAll _ s

theorem ArePlain.append {s t : List Char} (hs : ArePlain s) (ht : ArePlain t) :
    ArePlain (s ++ t) := List.forall_mem_append.2 ⟨hs, ht⟩

/-- Whether a character is ASCII and printable. -/
def IsVisible (c : Char) : Prop := 0x20 ≤ c.toNat ∧ c.toNat < 0x7f

instance (c : Char) : Decidable (IsVisible c) := inferInstanceAs (Decidable (_ ∧ _))

theorem IsVisible.isPlain {c : Char} (h : IsVisible c) : IsPlain c :=
  ⟨by have := h.2; omega, by rintro rfl; exact absurd h (by decide)⟩

/-- A text made of visible characters. -/
def AreVisible (s : List Char) : Prop := ∀ c ∈ s, IsVisible c

instance (s : List Char) : Decidable (AreVisible s) := List.decidableBAll _ s

theorem AreVisible.arePlain {s : List Char} (h : AreVisible s) : ArePlain s :=
  fun c hc => (h c hc).isPlain

theorem areVisible_nil : AreVisible [] := fun _ h => absurd h List.not_mem_nil

theorem AreVisible.cons {c : Char} {s : List Char} (hc : IsVisible c) (hs : AreVisible s) :
    AreVisible (c :: s) := List.forall_mem_cons.2 ⟨hc, hs⟩

theorem AreVisible.append {s t : List Char} (hs : AreVisible s) (ht : AreVisible t) :
    AreVisible (s ++ t) := List.forall_mem_append.2 ⟨hs, ht⟩

theorem areVisible_replicate {c : Char} (hc : IsVisible c) (n : Nat) :
    AreVisible (List.replicate n c) := fun d hd => by
  rw [List.eq_of_mem_replicate hd]
  exact hc

theorem decodeFrom_encode {s : List Char} (h : ArePlain s) (position : Nat) :
    Utf8.decodeFrom position 0 (Utf8.encode s) = .ok s := by
  induction s generalizing position with
  | nil => rfl
  | cons c s ih =>
    have hc : c.toNat < 0x80 := (h c (List.mem_cons_self ..)).1
    have hbyte : Utf8.encode (c :: s) = c.toNat.toUInt8 :: Utf8.encode s := by
      rw [Utf8.encode, List.flatMap_cons, Utf8.encodeChar, if_pos hc]
      rfl
    have htoNat : c.toNat.toUInt8.toNat = c.toNat := by
      rw [Nat.toUInt8, UInt8.toNat_ofNat']
      omega
    have hwidth : Utf8.width? c.toNat.toUInt8 = some 1 :=
      if_pos (UInt8.lt_iff_toNat_lt.2 (htoNat.symm ▸ hc))
    have hcode : Char.ofNat (Utf8.codePoint [c.toNat.toUInt8]) = c := by
      rw [Utf8.codePoint, htoNat, Char.ofNat_toNat]
    rw [hbyte, Utf8.decodeFrom, hwidth]
    simp only [Nat.sub_self, Nat.min_zero, Nat.lt_irrefl, if_false, List.take_zero, hcode]
    rw [ih fun d hd => h d (List.mem_cons_of_mem _ hd)]
    rfl

/-- **A plain text is read back from its bytes.** -/
theorem decode_encode {s : List Char} (h : ArePlain s) :
    Utf8.decode (Utf8.encode s) = .ok s := decodeFrom_encode h 0

/-- A text without carriage returns keeps its line breaks. -/
theorem normalizeBreaks_eq {s : List Char} (h : ArePlain s) : normalizeBreaks s = s := by
  induction s with
  | nil => rfl
  | cons c s ih =>
    have hc : c ≠ '\r' := (h c (List.mem_cons_self ..)).2
    rw [normalizeBreaks, if_neg hc, ih fun d hd => h d (List.mem_cons_of_mem _ hd)]
    exact fun _ hr => absurd hr hc

end ValueDocs.Text
