import ValueDocs.Proofs.Text.LineBreaks
import ValueDocs.Reference
import ValueDocs.Resolution

/-!
# Proofs/References — where references stand, and what resolving them reports

A reference is a stretch of its text without a line feed (`exists_of_mem_find`).  Resolving a block
reports the references that lead nowhere and nothing else, each once and in order
(`resolveBlock_snd`), and resolving a value reports what its blocks report (`resolveValue_snd`).
-/

namespace ValueDocs

open Text

namespace Reference

/-! ## The stretch of a reference -/

theorem exists_of_here? {s target : List Char} {kind : ReferenceKind} {length : Nat}
    (h : here? s = some (kind, target, length)) :
    ∃ w rest, s = w ++ rest ∧ length = w.length ∧ w ≠ [] ∧ '\n' ∉ w := by
  unfold here? at h
  split at h
  · next rest =>
    split at h
    · next c target' more htake hdrop =>
      simp only [Option.some.injEq, Prod.mk.injEq] at h
      obtain ⟨-, -, rfl⟩ := h
      refine ⟨'`' :: '`' :: (c :: target' ++ ['`', '`']), more, ?_, by simp, by simp, ?_⟩
      · rw [← List.takeWhile_append_dropWhile (p := isSymbolChar) (l := rest), htake, hdrop]
        simp
      · have hn : '\n' ∉ c :: target' := fun hn =>
          absurd (List.mem_takeWhile_imp (htake ▸ hn)) (by decide)
        simpa using hn
    · simp at h
  · next rest =>
    split at h
    · next c target' more htake hdrop =>
      simp only [Option.some.injEq, Prod.mk.injEq] at h
      obtain ⟨-, -, rfl⟩ := h
      refine ⟨'<' :: 'd' :: 'o' :: 'c' :: ':' :: (c :: target' ++ ['>']), more, ?_, by simp,
        by simp, ?_⟩
      · rw [← List.takeWhile_append_dropWhile (p := isArticleChar) (l := rest), htake, hdrop]
        simp
      · have hn : '\n' ∉ c :: target' := fun hn =>
          absurd (List.mem_takeWhile_imp (htake ▸ hn)) (by decide)
        simpa using hn
    · simp at h
  · simp at h

theorem exists_of_mem_findFrom {offset : Nat} {s : List Char} {r : Reference}
    (h : r ∈ findFrom offset s) :
    ∃ head w tail, s = head ++ (w ++ tail) ∧ r.start = offset + head.length ∧
      r.stop = r.start + w.length ∧ '\n' ∉ w := by
  induction offset, s using findFrom.induct with
  | case1 => simp [findFrom] at h
  | case2 offset c rest hhere ih =>
    rw [findFrom, hhere] at h
    obtain ⟨head, w, tail, hs, hstart, hstop, hn⟩ := ih h
    exact ⟨c :: head, w, tail, by rw [hs, List.cons_append],
      by rw [hstart, List.length_cons]; omega, hstop, hn⟩
  | case3 offset c rest kind target length hhere ih =>
    obtain ⟨w, more, hw, rfl, hne, hn⟩ := exists_of_here? hhere
    have hrest : rest.drop (w.length - 1) = more := by
      obtain ⟨d, w, rfl⟩ := List.exists_cons_of_ne_nil hne
      rw [List.cons_append] at hw
      rw [(List.cons_eq_cons.1 hw).2, List.length_cons, Nat.add_sub_cancel, List.drop_left]
    rw [findFrom, hhere] at h
    rcases List.mem_cons.1 h with rfl | h
    · exact ⟨[], w, more, hw, by simp, rfl, hn⟩
    · obtain ⟨head, w', tail, hs, hstart, hstop, hn'⟩ := ih h
      refine ⟨w ++ head, w', tail, ?_, ?_, hstop, hn'⟩
      · rw [hw, ← hrest, hs, List.append_assoc]
      · rw [hstart, List.length_append]
        omega

/-- **A reference is a stretch of its text on one line.** -/
theorem exists_of_mem_find {text : String} {r : Reference} (h : r ∈ find text) :
    ∃ head w tail, text.toList = head ++ (w ++ tail) ∧ r.start = head.length ∧
      r.stop = head.length + w.length ∧ '\n' ∉ w := by
  obtain ⟨head, w, tail, hs, hstart, hstop, hn⟩ := exists_of_mem_findFrom h
  rw [Nat.zero_add] at hstart
  exact ⟨head, w, tail, hs, hstart, hstart ▸ hstop, hn⟩

/-- References are found one after the other. -/
theorem pairwise_findFrom (offset : Nat) (s : List Char) :
    (findFrom offset s).Pairwise fun r t => r.stop ≤ t.start := by
  induction offset, s using findFrom.induct with
  | case1 => simp [findFrom]
  | case2 offset c rest hhere ih =>
    rw [findFrom, hhere]
    exact ih
  | case3 offset c rest kind target length hhere ih =>
    rw [findFrom, hhere]
    refine .cons (fun t ht => ?_) ih
    obtain ⟨head, -, -, -, hstart, -⟩ := exists_of_mem_findFrom ht
    exact hstart ▸ Nat.le_add_right ..

end Reference

/-! ## What resolving reports -/

namespace Resolution

variable (resolver : Resolver) (contextPath : String)

/-- The references of a block that lead nowhere; code has no references. -/
def unresolvedIn (b : Block) : List Reference :=
  if b.kind = .code then []
  else (Reference.find b.text).filter fun r => (resolver r contextPath).isNone

theorem mem_find_of_mem_unresolvedIn {resolver : Resolver} {contextPath : String} {b : Block}
    {r : Reference}
    (h : r ∈ unresolvedIn resolver contextPath b) :
    r ∈ Reference.find b.text ∧ resolver r contextPath = none := by
  unfold unresolvedIn at h
  split at h
  · simp at h
  · simpa using h

theorem segments_snd (f : Reference → Reported Segment) (cursor : Nat) (text : List Char)
    (refs : List Reference) :
    (segments f cursor text refs).2 = refs.flatMap fun r => (f r).2 := by
  induction refs generalizing cursor text with
  | nil => rfl
  | cons r refs ih => simp [segments, ih]

theorem segmentOf_snd (source : Option String) (b : Block) (r : Reference) :
    (segmentOf resolver contextPath source b r).2 =
      if (resolver r contextPath).isNone then [unresolved b r contextPath source] else [] := by
  unfold segmentOf
  cases resolver r contextPath <;> rfl

/-- **Resolving a block reports each reference that leads nowhere**, once and in order. -/
theorem resolveBlock_snd (source : Option String) (b : Block) :
    (resolveBlock resolver contextPath source b).2 =
      (unresolvedIn resolver contextPath b).map fun r => unresolved b r contextPath source := by
  unfold resolveBlock unresolvedIn
  split
  · rfl
  · change (segments _ _ _ _).2 = _
    rw [segments_snd]
    induction Reference.find b.text with
    | nil => rfl
    | cons r refs ih =>
      rw [List.flatMap_cons, ih, segmentOf_snd, List.filter_cons]
      split <;> simp

theorem mapReported_fst {α β : Type} (f : α → Reported β) (xs : List α) :
    (mapReported f xs).1 = xs.map fun x => (f x).1 := by
  induction xs with
  | nil => rfl
  | cons x xs ih => rw [mapReported, List.map_cons, ← ih]

theorem mapReported_snd {α β : Type} (f : α → Reported β) (xs : List α) :
    (mapReported f xs).2 = xs.flatMap fun x => (f x).2 := by
  induction xs with
  | nil => rfl
  | cons x xs ih => rw [mapReported, List.flatMap_cons, ← ih]

/-- Resolving content leaves the name and the order of a value alone. -/
theorem resolveValue_name_order (v : ReconciledValue) :
    (resolveValue resolver contextPath v).1.name = v.name ∧
      (resolveValue resolver contextPath v).1.order = v.order := by
  unfold resolveValue
  split <;> exact ⟨rfl, rfl⟩

/-- **Resolving a value reports what its blocks report**, variant by variant.  A value without
content has no blocks. -/
theorem resolveValue_snd (v : ReconciledValue) :
    (resolveValue resolver contextPath v).2 = v.content.sorted.flatMap fun e =>
      e.2.flatMap fun b =>
        (resolveBlock resolver contextPath (resolveValue.givenSource b v) b).2 := by
  unfold resolveValue
  split
  · change (mapReported _ _).2 = _
    rw [mapReported_snd]
    refine congrArg (List.flatMap · _) (funext fun e => ?_)
    change (mapReported _ _).2 = _
    rw [mapReported_snd]
  · next hempty =>
    refine (List.flatMap_eq_nil_iff.2 fun e he => ?_).symm
    have hall : ∀ e ∈ v.content.entries, e.2 = [] := by
      simpa [ReconciledValue.hasContent, Variants.isEmpty] using hempty
    rw [hall e ((List.mergeSort_perm _ _).subset he), List.flatMap_nil]

end Resolution
end ValueDocs
