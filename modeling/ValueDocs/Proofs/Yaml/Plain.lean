import Mathlib.Data.List.SplitBy
import ValueDocs.Proofs.Json.Plain
import ValueDocs.Yaml.Write

/-!
# Proofs/Yaml/Plain — a written configuration file is plain text

Whatever texts a tree holds, the file it is written in has ASCII characters only and no carriage
return (`Yaml.arePlain_write`): a character of any other kind is written as an escape.  So the file
reads back as the text that was written.

The pen is followed through the writer: what it has written stays plain with each thing it writes.
-/

namespace ValueDocs

open Text

namespace Yaml

/-! ## The pen -/

namespace Pen

/-- Whether a pen has written plain characters only. -/
def IsPlain (p : Pen) : Prop := ArePlain p.written

variable {p : Pen}

theorem IsPlain.put (h : p.IsPlain) {s : List Char} (hs : ArePlain s) : (p.put s).IsPlain :=
  .append (fun c hc => hs c (List.mem_reverse.1 hc)) h

theorem IsPlain.newLine (h : p.IsPlain) : p.newLine.IsPlain :=
  List.forall_mem_cons.2 ⟨by decide, h⟩

theorem IsPlain.amid (h : p.IsPlain) : p.amid.IsPlain := h

theorem IsPlain.indent (h : p.IsPlain) (n : Nat) : (p.indent n).IsPlain := by
  have hstart {q : Pen} (hq : q.IsPlain) : Pen.IsPlain
      (if q.column < n then { q.put (List.replicate (n - q.column) ' ') with spaced := true }
        else q) := by
    split
    · exact hq.put (areVisible_replicate (by decide) _).arePlain
    · exact hq
  rw [Pen.indent]
  refine hstart ?_
  split
  · exact h.newLine
  · exact h

theorem IsPlain.mark (h : p.IsPlain) {s : List Char} (hs : ArePlain s) : (p.mark s).IsPlain :=
  (h.put hs).amid

theorem IsPlain.markApart (h : p.IsPlain) {s : List Char} (hs : ArePlain s) :
    (p.markApart s).IsPlain := by
  refine h.mark ?_
  split
  · exact hs
  · exact List.forall_mem_cons.2 ⟨by decide, hs⟩

theorem IsPlain.markBlock (h : p.IsPlain) {c : Char} (hc : Text.IsPlain c) :
    (p.markBlock c).IsPlain := h.markApart (List.forall_mem_singleton.2 hc)

end Pen

/-! ## Texts -/

theorem isPlain_of_isPlainChar {c : Char} (h : isPlainChar c = true) : IsPlain c := by
  rw [isPlainChar, Bool.and_eq_true, decide_eq_true_eq, decide_eq_true_eq] at h
  exact IsVisible.isPlain ⟨h.1, Nat.lt_succ_of_le h.2⟩

/-- The parts of a text make up the text. -/
theorem arePlain_of_mem_parts {s part : List Char} (h : ArePlain s) (hpart : part ∈ parts s) :
    ArePlain part := fun c hc => by
  have hs : (parts s).flatten = s := List.flatten_splitBy _ s
  exact h c (hs ▸ List.mem_flatten.2 ⟨part, hpart, hc⟩)

theorem isPlain_writeBareParts {indent : Nat} {splits : Bool} {ps : List (List Char)}
    (hps : ∀ part ∈ ps, ArePlain part) {p : Pen} (h : p.IsPlain) :
    (writeBareParts indent splits p ps).IsPlain := by
  induction ps generalizing p with
  | nil => exact h
  | cons part rest ih =>
    obtain ⟨hpart, hrest⟩ := List.forall_mem_cons.1 hps
    refine ih hrest ?_
    split
    · exact (h.indent indent).amid
    · exact h.put hpart

theorem isPlain_writeBare {indent : Nat} {splits : Bool} {s : List Char} (hs : ArePlain s) {p : Pen}
    (h : p.IsPlain) : (writeBare indent splits s p).IsPlain :=
  isPlain_writeBareParts (fun _ => arePlain_of_mem_parts hs) (h.markApart (by decide))

theorem arePlain_doubleQuotes {s : List Char} (h : ArePlain s) : ArePlain (doubleQuotes s) := by
  intro c hc
  obtain ⟨d, hd, hc⟩ := List.mem_flatMap.1 hc
  have hmem : c = d := by
    split at hc <;> simpa using hc
  exact hmem ▸ h d hd

theorem isPlain_foldl_newLine (part : List Char) {p : Pen} (h : p.IsPlain) :
    (part.foldl (fun p _ => p.newLine) p).IsPlain := by
  induction part generalizing p with
  | nil => exact h
  | cons c part ih => exact ih h.newLine

theorem isPlain_writeSingleParts {indent : Nat} {splits first : Bool} {ps : List (List Char)}
    (hps : ∀ part ∈ ps, ArePlain part) {p : Pen} (h : p.IsPlain) :
    (writeSingleParts indent splits first p ps).IsPlain := by
  induction ps generalizing p first with
  | nil => exact h
  | cons part rest ih =>
    obtain ⟨hpart, hrest⟩ := List.forall_mem_cons.1 hps
    refine ih hrest ?_
    split
    · exact (isPlain_foldl_newLine part h.newLine).indent indent
    · split
      · exact h.indent indent
      · exact h.put (arePlain_doubleQuotes hpart)

theorem isPlain_writeSingle {indent : Nat} {splits : Bool} {s : List Char} (hs : ArePlain s)
    {p : Pen} (h : p.IsPlain) : (writeSingle indent splits s p).IsPlain :=
  (isPlain_writeSingleParts (fun _ => arePlain_of_mem_parts hs) (h.markApart (by decide))).mark
    (by decide)

/-! ## Escapes -/

theorem arePlain_hexDigits (width n : Nat) : ArePlain (hexDigits width n) := by
  refine .append (areVisible_replicate (by decide) _).arePlain fun c hc => ?_
  obtain ⟨d, hd, rfl⟩ := List.mem_map.1 hc
  obtain ⟨k, hk, rfl⟩ := exists_digit_of_mem_toDigits (by decide) hd
  clear hd hc
  revert k
  decide

theorem isPlain_escapeLetter? {c e : Char} (h : escapeLetter? c = some e) : IsPlain e := by
  rw [escapeLetter?.eq_def] at h
  split at h <;> cases h <;> decide

theorem arePlain_escapeOf? {c : Char} {e : List Char} (h : escapeOf? c = some e) : ArePlain e := by
  have hdigits (mark : Char) (hmark : IsPlain mark) (width : Nat) :
      ArePlain ('\\' :: mark :: hexDigits width c.toNat) :=
    List.forall_mem_cons.2 ⟨by decide, List.forall_mem_cons.2 ⟨hmark, arePlain_hexDigits _ _⟩⟩
  rw [escapeOf?] at h
  split at h
  next letter hletter =>
    cases h
    exact List.forall_mem_cons.2
      ⟨by decide, List.forall_mem_singleton.2 (isPlain_escapeLetter? hletter)⟩
  next =>
    split at h
    · cases h
    · split at h
      · cases h
        exact hdigits 'x' (by decide) 2
      · split at h
        · cases h
          exact hdigits 'u' (by decide) 4
        · cases h
          exact hdigits 'U' (by decide) 8

/-- A character without an escape is plain. -/
theorem isPlain_of_escapeOf? {c : Char} (h : escapeOf? c = none) : IsPlain c := by
  rw [escapeOf?] at h
  split at h
  · cases h
  · split at h
    next hplain => exact isPlain_of_isPlainChar hplain
    · split at h
      · cases h
      · split at h <;> cases h

theorem isPlain_fold {indent : Nat} {next : Option Char} {p : Pen} (h : p.IsPlain) :
    (fold indent next p).IsPlain := by
  have hbelow := ((h.put (by decide : ArePlain ['\\'])).indent indent).amid
  rw [fold]
  split
  · exact hbelow.put (by decide)
  · exact hbelow

theorem isPlain_writeDoubleChars {indent : Nat} {splits first : Bool} {waiting s : List Char}
    (hwaiting : ArePlain waiting) {p : Pen} (h : p.IsPlain) :
    (writeDoubleChars indent splits first waiting p s).IsPlain := by
  induction s generalizing first waiting p with
  | nil => exact h.put hwaiting
  | cons c s ih =>
    rw [writeDoubleChars]
    dsimp only
    split
    next e he =>
      have hescaped := (h.put hwaiting).put (arePlain_escapeOf? he)
      refine ih (List.forall_mem_nil _) ?_
      split
      · exact isPlain_fold hescaped
      · exact hescaped
    next hc =>
      have hplain := List.forall_mem_singleton.2 (isPlain_of_escapeOf? hc)
      split
      · exact ih hplain (isPlain_fold (h.put hwaiting))
      · exact ih (hwaiting.append hplain) h

theorem isPlain_writeDouble {indent : Nat} {splits : Bool} {s : List Char} {p : Pen}
    (h : p.IsPlain) : (writeDouble indent splits s p).IsPlain :=
  (isPlain_writeDoubleChars (List.forall_mem_nil _) (h.markApart (by decide))).mark (by decide)

/-- A text that is not written in double quotes has plain characters only. -/
theorem arePlain_of_quoting {s : List Char} (h : quoting s ≠ .double) : ArePlain s := by
  intro c hc
  rw [quoting] at h
  split at h
  next hbare =>
    simp only [isBare, Bool.and_eq_true, List.all_eq_true] at hbare
    exact isPlain_of_isPlainChar (hbare.1.1.1.2 c hc)
  next =>
    split at h
    next hquotable =>
      simp only [isQuotable, Bool.and_eq_true, List.all_eq_true, Bool.or_eq_true] at hquotable
      rcases hquotable.1.1 c hc with hplain | hbreak
      · exact isPlain_of_isPlainChar hplain
      · rw [eq_of_beq hbreak]
        decide
    · exact absurd rfl h

/-- **A text is written in plain characters**, whatever characters it has. -/
theorem isPlain_writeText {indent : Nat} {splits : Bool} {s : List Char} {p : Pen}
    (h : p.IsPlain) : (writeText indent splits s p).IsPlain := by
  rw [writeText]
  cases hquoting : quoting s with
  | bare => exact isPlain_writeBare (arePlain_of_quoting (by rw [hquoting]; nofun)) h
  | single => exact isPlain_writeSingle (arePlain_of_quoting (by rw [hquoting]; nofun)) h
  | double => exact isPlain_writeDouble h

/-! ## Trees -/

theorem arePlain_floatText (x : Binary64) : ArePlain (floatText x).toList := by
  have hcompact := (Json.areVisible_compact (.float x)).arePlain
  rw [floatText.eq_def]
  split
  · split <;> decide
  · decide
  · dsimp only
    split
    · rwa [String.toList_ofList]
    · rw [String.toList_ofList]
      intro c hc
      obtain ⟨d, hd, hc⟩ := List.mem_flatMap.1 hc
      split at hc
      · exact (by decide : ArePlain ".0e".toList) c hc
      · exact List.mem_singleton.1 hc ▸ hcompact d hd

theorem isPlain_writeScalar {indent : Nat} (j : Json) {p : Pen} (h : p.IsPlain) :
    (writeScalar indent j p).IsPlain := by
  have hcompact (j : Json) : (writeBare indent true j.compact.toList p).IsPlain :=
    isPlain_writeBare (Json.areVisible_compact j).arePlain h
  cases j with
  | str s => exact isPlain_writeText h
  | float x => exact isPlain_writeBare (arePlain_floatText x) h
  | arr items => exact h.markApart (by decide)
  | obj fields => exact h.markApart (by decide)
  | null => exact hcompact .null
  | bool b => exact hcompact (.bool b)
  | int n => exact hcompact (.int n)

theorem isPlain_writeKey {indent : Nat} {name : List Char} {p : Pen} (h : p.IsPlain) :
    (writeKey indent name p).IsPlain := by
  have hkey := h.indent indent
  rw [writeKey]
  split
  · exact (isPlain_writeText hkey).mark (by decide)
  · exact ((isPlain_writeText (hkey.markBlock (by decide))).indent indent).markBlock (by decide)

mutual

theorem isPlain_writeValue {indent : Nat} {underKey : Bool} :
    ∀ (j : Json) {p : Pen}, p.IsPlain → (writeValue indent underKey j p).IsPlain
  | .arr (i :: is), p, h => by
    rw [writeValue]
    exact isPlain_writeItems (i :: is) h
  | .obj (f :: fs), p, h => by
    rw [writeValue]
    exact isPlain_writeFields (f :: fs) h
  | .arr [], p, h | .obj [], p, h | .str _, p, h | .float _, p, h | .null, p, h | .bool _, p, h
  | .int _, p, h => by
    rw [writeValue]
    · exact isPlain_writeScalar _ h
    all_goals nofun

theorem isPlain_writeItems {indent : Nat} :
    ∀ (js : List Json) {p : Pen}, p.IsPlain → (writeItems indent js p).IsPlain
  | [], _, h => h
  | j :: js, _, h => by
    rw [writeItems]
    exact isPlain_writeItems js
      (isPlain_writeValue j ((h.indent indent).markBlock (by decide)))

theorem isPlain_writeFields {indent : Nat} :
    ∀ (fs : List (String × Json)) {p : Pen}, p.IsPlain → (writeFields indent fs p).IsPlain
  | [], _, h => h
  | (_, j) :: fs, _, h => by
    rw [writeFields]
    exact isPlain_writeFields fs (isPlain_writeValue j (isPlain_writeKey h))

end

theorem isPlain_writeTree (j : Json) {p : Pen} (h : p.IsPlain) : (writeTree j p).IsPlain := by
  rw [writeTree.eq_def]
  split
  · exact isPlain_writeItems _ h
  · exact isPlain_writeFields _ h
  · exact isPlain_writeScalar _ h

/-- **A written file is plain.** -/
theorem arePlain_write (j : Json) : ArePlain (write j).toList := by
  have hempty : Pen.IsPlain {} := List.forall_mem_nil _
  have hwritten := (isPlain_writeTree j hempty).indent 0
  rw [write, String.toList_ofList]
  exact fun c hc => hwritten c (List.mem_reverse.1 hc)

end Yaml
end ValueDocs
