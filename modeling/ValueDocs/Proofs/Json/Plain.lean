import ValueDocs.Json.Print
import ValueDocs.Proofs.Text.Plain

/-!
# Proofs/Json/Plain — a written tree is plain text

Whatever a tree holds, its written form consists of printable ASCII characters and of the line feeds
of its layout, so it is kept by a file as it is (`arePlain_print`), and on one line it has no line
break at all (`areVisible_compact`).
-/

namespace ValueDocs

open Text

/-! ## Digits -/

/-- The digits of a number are digits of its base. -/
theorem exists_digit_of_mem_toDigits {b : Nat} (hb : 1 < b) {n : Nat} {c : Char}
    (h : c ∈ Nat.toDigits b n) : ∃ d < b, c = Nat.digitChar d := by
  induction n using Nat.strongRecOn with
  | _ n ih =>
    rw [Nat.toDigits_eq_if hb] at h
    split at h
    · next hn => exact ⟨n, hn, List.mem_singleton.1 h⟩
    · next hn =>
      rcases List.mem_append.1 h with h | h
      · exact ih _ (Nat.div_lt_self (by omega) hb) h
      · exact ⟨n % b, Nat.mod_lt _ (by omega), List.mem_singleton.1 h⟩

theorem isVisible_digitChar {d : Nat} (hd : d < 16) : IsVisible (Nat.digitChar d) := by
  revert d
  decide

theorem isVisible_of_mem_toDigits {b : Nat} (hb : 1 < b) (hb' : b ≤ 16) {n : Nat} :
    AreVisible (Nat.toDigits b n) := fun c hc => by
  obtain ⟨d, hd, rfl⟩ := exists_digit_of_mem_toDigits hb hc
  exact isVisible_digitChar (by omega)

/-! ## Numbers -/

namespace Binary64

theorem areVisible_padZeros {digits : List Char} (h : AreVisible digits) (width : Nat) :
    AreVisible (padZeros width digits) :=
  (areVisible_replicate (by decide) _).append h

theorem areVisible_writeDecimal (style : Style) (x : Decimal) :
    AreVisible (style.writeDecimal x) := by
  have hdigits : AreVisible (Nat.toDigits 10 x.digits) :=
    isVisible_of_mem_toDigits (by decide) (by decide)
  have htake (n : Nat) : AreVisible ((Nat.toDigits 10 x.digits).take n) := fun c hc =>
    hdigits c (List.mem_of_mem_take hc)
  have hdrop (n : Nat) : AreVisible ((Nat.toDigits 10 x.digits).drop n) := fun c hc =>
    hdigits c (List.mem_of_mem_drop hc)
  rw [Style.writeDecimal]
  dsimp only
  split
  · split
    · exact (AreVisible.append (by decide) (areVisible_replicate (by decide) _)).append hdigits
    · split
      · exact (hdigits.append (areVisible_replicate (by decide) _)).append (by decide)
      · exact (htake _).append (.cons (by decide) (hdrop _))
  · refine ((htake 1).append ?_).append (.cons (by decide) (.cons ?_ (areVisible_padZeros
      (isVisible_of_mem_toDigits (by decide) (by decide)) 2)))
    · split
      · split <;> decide
      · exact .cons (by decide) (hdrop 1)
    · split <;> decide

end Binary64

namespace Json

theorem areVisible_numberStyle (x : Binary64) : AreVisible (numberStyle.write x).toList := by
  cases x with
  | notANumber => decide
  | infinite negative => cases negative <;> decide
  | finite negative m e =>
    have hsize : AreVisible (if m = 0 then "0.0".toList
        else numberStyle.writeDecimal (Binary64.shortest m e)) := by
      split
      · decide
      · exact Binary64.areVisible_writeDecimal _ _
    rw [Binary64.Style.write, String.toList_ofList]
    split
    · exact .cons (by decide) hsize
    · exact hsize

theorem areVisible_unitDigits (n : Nat) : AreVisible (unitDigits n) :=
  Binary64.areVisible_padZeros (isVisible_of_mem_toDigits (by decide) (by decide)) 4

theorem areVisible_escapeUnits (c : Char) : AreVisible (escapeUnits c) := by
  rw [escapeUnits]
  dsimp only
  split
  · exact .cons (by decide) (.cons (by decide) (areVisible_unitDigits _))
  · exact (AreVisible.cons (by decide) (.cons (by decide) (areVisible_unitDigits _))).append
      (.cons (by decide) (.cons (by decide) (areVisible_unitDigits _)))

theorem areVisible_escapeChar (c : Char) : AreVisible (escapeChar c) := by
  rw [escapeChar.eq_def]
  split <;> try decide
  split
  · next hrange =>
    rw [Bool.and_eq_true, decide_eq_true_eq, decide_eq_true_eq] at hrange
    exact .cons ⟨by omega, by omega⟩ areVisible_nil
  · exact areVisible_escapeUnits _

theorem areVisible_quote (s : String) : AreVisible (quote s) := by
  refine .cons (by decide) (.append (fun c hc => ?_) (by decide))
  obtain ⟨d, -, hd⟩ := List.mem_flatMap.1 hc
  exact areVisible_escapeChar d c hd

theorem areVisible_int (n : Int) : AreVisible (toString n).toList := by
  rw [Int.toString_eq_repr, Int.repr_eq_if]
  split
  · rw [Nat.toList_repr]
    exact isVisible_of_mem_toDigits (by decide) (by decide)
  · rw [String.toList_append, Nat.toList_repr]
    exact .append (by decide) (isVisible_of_mem_toDigits (by decide) (by decide))

/-! ## Trees -/

/-- Whether the line feeds of a layout are of a class. -/
def Layout.Fits (P : Char → Prop) (layout : Layout) : Prop := layout = .line ∨ P '\n'

theorem Layout.Fits.inner {P : Char → Prop} {layout : Layout} (h : layout.Fits P) :
    layout.inner.Fits P :=
  h.imp_left fun hline => by rw [hline, Layout.inner]

section

variable {P : Char → Prop} (hP : ∀ c, IsVisible c → P c)

include hP

theorem forall_mem_margin {layout : Layout} (h : layout.Fits P) : ∀ c ∈ layout.margin, P c := by
  rcases layout with _ | d
  · exact List.forall_mem_nil _
  · refine List.forall_mem_cons.2 ⟨h.resolve_left nofun, fun c hc => hP c ?_⟩
    exact areVisible_replicate (by decide) _ c hc

theorem forall_mem_separator {layout : Layout} (h : layout.Fits P) :
    ∀ c ∈ layout.separator, P c := by
  rcases layout with _ | d
  · exact fun c hc => hP c ((by decide : AreVisible [',', ' ']) c hc)
  · have hmargin : ∀ c ∈ (Layout.indented d).margin, P c := forall_mem_margin hP h
    exact List.forall_mem_cons.2 ⟨hP _ (by decide), hmargin⟩

mutual

/-- **What a tree is written in**: visible characters and the line feeds of the layout. -/
theorem forall_mem_print {layout : Layout} (h : layout.Fits P) :
    ∀ j : Json, ∀ c ∈ j.print layout, P c
  | null => by rw [print]; exact fun c hc => hP c ((by decide : AreVisible _) c hc)
  | bool true => by rw [print]; exact fun c hc => hP c ((by decide : AreVisible _) c hc)
  | bool false => by rw [print]; exact fun c hc => hP c ((by decide : AreVisible _) c hc)
  | int n => by rw [print]; exact fun c hc => hP c (areVisible_int n c hc)
  | float x => by rw [print]; exact fun c hc => hP c (areVisible_numberStyle x c hc)
  | str s => by rw [print]; exact fun c hc => hP c (areVisible_quote s c hc)
  | arr [] => by rw [print]; exact fun c hc => hP c ((by decide : AreVisible _) c hc)
  | arr (j :: js) => by
    rw [print]
    simp only [List.forall_mem_append, List.forall_mem_cons]
    exact ⟨⟨⟨⟨⟨hP _ (by decide), forall_mem_margin hP h.inner⟩, forall_mem_print h.inner j⟩,
      forall_mem_printItems h.inner js⟩, forall_mem_margin hP h⟩,
      hP _ (by decide), List.forall_mem_nil _⟩
  | obj [] => by rw [print]; exact fun c hc => hP c ((by decide : AreVisible _) c hc)
  | obj ((k, j) :: js) => by
    rw [print]
    simp only [List.forall_mem_append, List.forall_mem_cons]
    exact ⟨⟨⟨⟨⟨⟨hP _ (by decide), forall_mem_margin hP h.inner⟩, fun c hc => hP c
      (areVisible_quote k c hc)⟩, hP _ (by decide), hP _ (by decide),
      forall_mem_print h.inner j⟩, forall_mem_printFields h.inner js⟩,
      forall_mem_margin hP h⟩,
      hP _ (by decide), List.forall_mem_nil _⟩

theorem forall_mem_printItems {layout : Layout} (h : layout.Fits P) :
    ∀ js : List Json, ∀ c ∈ printItems layout js, P c
  | [] => List.forall_mem_nil _
  | j :: js => by
    rw [printItems]
    simp only [List.forall_mem_append]
    exact ⟨⟨forall_mem_separator hP h, forall_mem_print h j⟩, forall_mem_printItems h js⟩

theorem forall_mem_printFields {layout : Layout} (h : layout.Fits P) :
    ∀ fs : List (String × Json), ∀ c ∈ printFields layout fs, P c
  | [] => List.forall_mem_nil _
  | (k, j) :: fs => by
    rw [printFields]
    simp only [List.forall_mem_append, List.forall_mem_cons]
    exact ⟨⟨⟨forall_mem_separator hP h, fun c hc => hP c (areVisible_quote k c hc)⟩,
      hP _ (by decide), hP _ (by decide), forall_mem_print h j⟩, forall_mem_printFields h fs⟩

end

end

/-- **A written tree is plain.** -/
theorem arePlain_print (layout : Layout) (j : Json) : ArePlain (j.print layout) :=
  forall_mem_print (fun _ h => h.isPlain) (.inr (by decide)) j

theorem arePlain_pretty (j : Json) : ArePlain j.pretty.toList := by
  rw [pretty, String.toList_ofList]
  exact arePlain_print _ j

/-- **On one line a tree is visible.** -/
theorem areVisible_compact (j : Json) : AreVisible j.compact.toList := by
  rw [compact, String.toList_ofList]
  exact forall_mem_print (fun _ h => h) (.inl rfl) j

end Json
end ValueDocs
