import Mathlib.Data.List.Basic
import ValueDocs.Files.Path

/-!
# Proofs/Files/Paths — a path that is written is read back

Splitting the text of a path at its slashes gives its parts again, as long as no part is empty, names
the same directory or holds a slash.  The parts of a path that is read are such parts.
-/

namespace ValueDocs

/-! ## Splitting at a character -/

namespace Text

variable {sep : Char}

theorem splitAt_cons_of_ne {c : Char} (hc : c ≠ sep) {s piece : List Char}
    {pieces : List (List Char)} (h : splitAt sep s = piece :: pieces) :
    splitAt sep (c :: s) = (c :: piece) :: pieces := by
  rw [splitAt, if_neg hc, h]

theorem splitAt_of_notMem {s : List Char} (h : sep ∉ s) : splitAt sep s = [s] := by
  induction s with
  | nil => rfl
  | cons c s ih =>
    obtain ⟨hc, hs⟩ := List.ne_and_not_mem_of_not_mem_cons h
    exact splitAt_cons_of_ne (Ne.symm hc) (ih hs)

theorem splitAt_append {s : List Char} (h : sep ∉ s) (t : List Char) :
    splitAt sep (s ++ sep :: t) = s :: splitAt sep t := by
  induction s with
  | nil => rw [List.nil_append, splitAt, if_pos rfl]
  | cons c s ih =>
    obtain ⟨hc, hs⟩ := List.ne_and_not_mem_of_not_mem_cons h
    exact splitAt_cons_of_ne (Ne.symm hc) (ih hs)

theorem splitAt_ne_nil (sep : Char) (s : List Char) : splitAt sep s ≠ [] := by
  rcases s with _ | ⟨c, s⟩
  · simp [splitAt]
  · rw [splitAt]
    split
    · simp
    · split <;> simp

/-- A text is split at a separator wherever it stands. -/
theorem splitAt_append_cons (sep : Char) (s t : List Char) :
    splitAt sep (s ++ sep :: t) = splitAt sep s ++ splitAt sep t := by
  induction s with
  | nil => simp [splitAt]
  | cons c s ih =>
    by_cases hc : c = sep
    · simp [splitAt, hc, ih]
    · obtain ⟨piece, pieces, hs⟩ := List.exists_cons_of_ne_nil (splitAt_ne_nil sep s)
      rw [List.cons_append, splitAt_cons_of_ne hc (ih.trans (congrArg (· ++ _) hs)),
        splitAt_cons_of_ne hc hs]
      rfl

/-- Pieces that are joined are split again. -/
theorem splitAt_intercalate {pieces : List (List Char)} (h : ∀ piece ∈ pieces, sep ∉ piece)
    (hne : pieces ≠ []) : splitAt sep ([sep].intercalate pieces) = pieces := by
  induction pieces with
  | nil => exact absurd rfl hne
  | cons piece pieces ih =>
    have hpiece := h piece (List.mem_cons_self ..)
    cases pieces with
    | nil => rw [List.intercalate_singleton, splitAt_of_notMem hpiece]
    | cons piece' pieces =>
      rw [List.intercalate_cons_cons, List.append_assoc, List.singleton_append,
        splitAt_append hpiece, ih (fun q hq => h q (List.mem_cons_of_mem _ hq)) (by simp)]

theorem notMem_of_mem_splitAt {s piece : List Char} (h : piece ∈ splitAt sep s) : sep ∉ piece := by
  induction s generalizing piece with
  | nil =>
    obtain rfl := List.mem_singleton.1 h
    exact List.not_mem_nil
  | cons c s ih =>
    rw [splitAt] at h
    split at h
    · rcases List.mem_cons.1 h with rfl | h
      · exact List.not_mem_nil
      · exact ih h
    · next hc =>
      split at h
      · obtain rfl := List.mem_singleton.1 h
        exact List.not_mem_cons_of_ne_of_not_mem (Ne.symm hc) List.not_mem_nil
      · next first pieces hsplit =>
        rw [hsplit] at ih
        rcases List.mem_cons.1 h with rfl | h
        · exact List.not_mem_cons_of_ne_of_not_mem (Ne.symm hc) (ih (List.mem_cons_self ..))
        · exact ih (List.mem_cons_of_mem _ h)

end Text

/-! ## Paths -/

namespace Path

/-- Whether a part is one that a path keeps when it is read. -/
structure IsPart (part : String) : Prop where
  ne_nil : part.toList ≠ []
  ne_dot : part.toList ≠ ['.']
  notMem : '/' ∉ part.toList

theorem isPart_of_mem_ofString {s part : String} (h : part ∈ (ofString s).parts) :
    IsPart part := by
  obtain ⟨piece, hpiece, rfl⟩ := List.mem_map.1 h
  obtain ⟨hmem, hkept⟩ := List.mem_filter.1 hpiece
  obtain ⟨hnil, hdot⟩ := of_decide_eq_true hkept
  exact ⟨by simpa using hnil, by simpa using hdot, by simpa using Text.notMem_of_mem_splitAt hmem⟩

/-- The pieces between slashes that are parts. -/
theorem filter_map_toList {parts : List String} (h : ∀ part ∈ parts, IsPart part) :
    ((parts.map String.toList).filter fun p => p ≠ [] ∧ p ≠ ['.']).map String.ofList = parts := by
  rw [List.filter_eq_self.2, List.map_map]
  · simp [Function.comp_def]
  · intro piece hpiece
    obtain ⟨part, hpart, rfl⟩ := List.mem_map.1 hpiece
    exact decide_eq_true ⟨(h part hpart).ne_nil, (h part hpart).ne_dot⟩

/-- **A path that is written is read back.** -/
theorem ofString_toString {p : Path} (h : ∀ part ∈ p.parts, IsPart part) :
    ofString p.toString = p := by
  obtain ⟨start, parts⟩ := p
  cases parts with
  | nil => cases start <;> decide +kernel
  | cons part parts =>
    have hnotMem : ∀ piece ∈ (part :: parts).map String.toList, '/' ∉ piece := fun piece hpiece => by
      obtain ⟨q, hq, rfl⟩ := List.mem_map.1 hpiece
      exact (h q hq).notMem
    have hsplit := Text.splitAt_intercalate hnotMem (by simp)
    obtain ⟨c, s, hcs⟩ := List.exists_cons_of_ne_nil (h part (List.mem_cons_self ..)).ne_nil
    have hslash : c ≠ '/' := fun heq =>
      (h part (List.mem_cons_self ..)).notMem (hcs ▸ heq ▸ List.mem_cons_self ..)
    set joined := ['/'].intercalate ((part :: parts).map String.toList) with hjoined
    obtain ⟨rest, hrest⟩ : ∃ rest, joined = c :: rest := by
      rw [hjoined, List.map_cons, hcs]
      cases parts <;> simp [List.intercalate_cons_cons]
    have hwritten : (toString ⟨start, part :: parts⟩).toList = start.written.toList ++ joined := by
      rw [toString, if_neg (fun h => by cases h), String.toList_append, String.toList_intercalate]
      rfl
    rw [ofString, hwritten]
    congr 1
    · rw [hrest]
      cases start <;> simp [startOf, PathStart.written, hslash]
    · -- the slashes in front make empty pieces
      have hfront : (Text.splitAt '/' (start.written.toList ++ joined)).filter
          (fun p => p ≠ [] ∧ p ≠ ['.']) =
            ((part :: parts).map String.toList).filter fun p => p ≠ [] ∧ p ≠ ['.'] := by
        cases start <;> simp [PathStart.written, Text.splitAt, hsplit]
      rw [hfront]
      exact filter_map_toList h

end Path
end ValueDocs
