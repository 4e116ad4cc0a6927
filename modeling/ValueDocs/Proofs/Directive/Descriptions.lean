import Mathlib.Data.List.Infix
import ValueDocs.Directive.Scan
import ValueDocs.Proofs.Directive.Lines
import ValueDocs.Proofs.Text.LineBreaks

/-!
# Proofs/Directive/Descriptions — the lines of a short description

A description is the rest of the marker line, unless it is blank, and the lines that continue it,
each trimmed.  Its lines follow one another (`line_descriptionLines`), and joined they are the short
description, out of which they are cut again (`lines_unlines_map_trim`).
-/

namespace ValueDocs.Directive

open Text

theorem isFilled_of_mem_continuation {region : List Line} {l : Line}
    (h : l ∈ continuation region) : isFilled l = true := by
  have := List.mem_takeWhile_imp h
  simp only [continuesItem, Bool.and_eq_true] at this
  exact this.1.1

section Description

variable {n column : Int} {item : ValueItem} {continued : List Line}

/-- The lines of a description follow one another. -/
theorem line_descriptionLines {k : Nat} {d : DescriptionLine}
    (h : (descriptionLines n column item continued)[k]? = some d) :
    ∃ first, (descriptionLines n column item continued).head? = some first ∧
      d.line = first.line + k := by
  unfold descriptionLines at h ⊢
  dsimp only at h ⊢
  split at h
  · next hblank =>
    rw [List.nil_append, List.getElem?_mapIdx] at h
    obtain ⟨l, hl, rfl⟩ := Option.map_eq_some_iff.1 h
    have hne := List.ne_nil_of_mem (List.mem_of_getElem? hl)
    obtain ⟨first, more, rfl⟩ := List.exists_cons_of_ne_nil hne
    simp [hblank]
  · next hfilled =>
    rw [if_neg hfilled, List.singleton_append]
    refine ⟨_, rfl, ?_⟩
    rw [List.singleton_append] at h
    rcases k with _ | k
    · obtain rfl := Option.some.inj h
      simp
    · rw [List.getElem?_cons_succ, List.getElem?_mapIdx] at h
      obtain ⟨l, -, rfl⟩ := Option.map_eq_some_iff.1 h
      dsimp only
      omega

/-- The texts of a description are trimmed. -/
theorem map_text_descriptionLines :
    (descriptionLines n column item continued).map (·.text) =
      ((if isBlankLine item.description then [] else [item.description]) ++
        continued).map trim := by
  unfold descriptionLines
  dsimp only
  rw [List.map_append, List.map_append]
  congr 1
  · split <;> rfl
  · exact List.ext_getElem? fun k => by simp [Function.comp_def]

theorem forall_mem_descriptionLines {P : DescriptionLine → Prop} :
    (∀ d ∈ descriptionLines n column item continued, P d) ↔
      (isFilled item.description = true →
        P ⟨n, column + item.descriptionStart + indent item.description + 1,
          trim item.description⟩) ∧
      ∀ (k : Nat) (l : Line), continued[k]? = some l → P ⟨n + 1 + k, indent l + 1, trim l⟩ := by
  unfold descriptionLines
  dsimp only
  rw [List.forall_mem_append]
  refine and_congr ?_ ?_
  · unfold isFilled
    cases isBlankLine item.description <;> simp
  · constructor
    · intro h k l hl
      exact h _ (List.mem_of_getElem? (by rw [List.getElem?_mapIdx, hl]; rfl))
    · intro h d hd
      obtain ⟨k, hk⟩ := List.getElem?_of_mem hd
      rw [List.getElem?_mapIdx] at hk
      obtain ⟨l, hl, rfl⟩ := Option.map_eq_some_iff.1 hk
      exact h k l hl

/-- The text of a description on one line. -/
theorem unlines_descriptionLines_nil :
    unlines ((descriptionLines n column item []).map (·.text)) = trim item.description := by
  rw [map_text_descriptionLines, List.append_nil]
  split
  · next hblank => rw [trim_eq_nil_iff.2 hblank, List.map_nil, unlines_nil]
  · rw [List.map_singleton, unlines_singleton]

/-- Trimmed lines that say something are found again once joined. -/
theorem lines_unlines_map_trim {ls : List Line} (hu : ∀ l ∈ ls, IsUnbroken l)
    (hf : ∀ l ∈ ls, isFilled l = true) : lines (unlines (ls.map trim)) = ls.map trim := by
  refine lines_unlines (fun t ht => ?_) fun hlast => ?_
  · obtain ⟨l, hl, rfl⟩ := List.mem_map.1 ht
    exact (hu l hl).of_subset (subset_trim l)
  · obtain ⟨l, hl, hnil⟩ := List.mem_map.1 (List.mem_of_getLast? hlast)
    exact isFilled_iff.1 (hf l hl) hnil

end Description

end ValueDocs.Directive
