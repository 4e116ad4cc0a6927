import ValueDocs.Proofs.Contents
import ValueDocs.Proofs.References

/-!
# Proofs/ResolvedContent — what resolving content changes, and in which order it reports

Resolving content fills in the segments of prose and changes nothing else.  It reports the
references that lead nowhere value by value, variant by variant, block by block and from left to
right, each once; and done again it yields the same (`resolveAll_isResolution`).

The last holds at each level for one reason: what is done to an item does the same to its outcome
(`mapReported_mapReported`).
-/

namespace ValueDocs

/-! ## Content without segments -/

/-- A block without the segments of resolved prose; code is kept whole. -/
def Block.bare (b : Block) : Block := if b.kind = .code then b else { b with inlines := [] }

namespace ReconciledValue

/-- A reconciled value without the segments of resolved prose; its variants stand in order, since
the order in which they were given does not count. -/
def bare (v : ReconciledValue) : ReconciledValue :=
  { v with content := v.content.map (·.map Block.bare) }

/-- Whether a value is resolved with nothing but segments of prose changed. -/
structure IsAnnotated (v resolved : ReconciledValue) : Prop where
  bare : resolved.bare = v.bare
  hasContent : resolved.hasContent = v.hasContent
  /-- A value without content is left as it is. -/
  eq : v.hasContent = false → resolved = v

end ReconciledValue

namespace Resolution

variable (resolver : Resolver) (contextPath : String)

/-- What resolving values is to report: each reference that leads nowhere, under the source of its
block or else of its value. -/
def reports (vs : List ReconciledValue) : List Diagnostic :=
  vs.flatMap fun v => v.content.sorted.flatMap fun e => e.2.flatMap fun b =>
    (unresolvedIn resolver contextPath b).map fun r =>
      unresolved b r contextPath (resolveValue.givenSource b v)

/-- Whether values and diagnostics are what resolving `vs` is to yield. -/
structure IsResolution (vs : List ReconciledValue) (resolved : Reported (List ReconciledValue)) :
    Prop where
  values : List.Forall₂ ReconciledValue.IsAnnotated vs resolved.1
  diagnostics : resolved.2 = reports resolver contextPath vs
  /-- Variants are reported on by their tags, the primary one first. -/
  variants : ∀ v ∈ vs, IsStableSort (fun e => e.1.rank) v.content.entries v.content.sorted
  /-- References are reported on from left to right. -/
  references : ∀ b, (unresolvedIn resolver contextPath b).Pairwise fun r s => r.stop ≤ s.start
  /-- Resolved again, the values and the diagnostics are the same. -/
  again : resolveAll resolver contextPath resolved.1 = resolved

/-- **Doing the same again to every item changes nothing**, if it changes nothing of one item. -/
theorem mapReported_mapReported {α : Type} {f : α → Reported α} (hf : ∀ x, f (f x).1 = f x)
    (xs : List α) : mapReported f (mapReported f xs).1 = mapReported f xs := by
  induction xs with
  | nil => rfl
  | cons x xs ih => simp only [mapReported, hf, ih]

/-! ## Blocks -/

section Blocks

variable (source : Option String)

/-- Resolving a block leaves code as it is and gives prose segments. -/
theorem resolveBlock_cases (b : Block) :
    b.kind = .code ∧ resolveBlock resolver contextPath source b = (b, []) ∨
    b.kind ≠ .code ∧
      ∃ inlines, (resolveBlock resolver contextPath source b).1 = { b with inlines } := by
  by_cases h : b.kind = .code
  · exact .inl ⟨h, if_pos h⟩
  · exact .inr ⟨h, _, by rw [resolveBlock, if_neg h]⟩

/-- What is done to prose does not depend on the segments it has. -/
theorem resolveBlock_inlines {b : Block} (h : b.kind ≠ .code) (inlines : List Segment) :
    resolveBlock resolver contextPath source { b with inlines } =
      resolveBlock resolver contextPath source b := by
  rw [resolveBlock, if_neg (by exact h), resolveBlock, if_neg h]
  rfl

/-- **Resolving a block changes nothing but segments of prose.** -/
theorem bare_resolveBlock (b : Block) :
    (resolveBlock resolver contextPath source b).1.bare = b.bare := by
  obtain ⟨-, hb⟩ | ⟨h, inlines, hb⟩ := resolveBlock_cases resolver contextPath source b
  · rw [hb]
  · rw [hb, Block.bare, if_neg (by exact h), Block.bare, if_neg h]

theorem source_resolveBlock (b : Block) :
    (resolveBlock resolver contextPath source b).1.source = b.source := by
  obtain ⟨-, hb⟩ | ⟨-, inlines, hb⟩ := resolveBlock_cases resolver contextPath source b
  · rw [hb]
  · rw [hb]

theorem resolveBlock_resolveBlock (b : Block) :
    resolveBlock resolver contextPath source (resolveBlock resolver contextPath source b).1 =
      resolveBlock resolver contextPath source b := by
  obtain ⟨-, hb⟩ | ⟨h, inlines, hb⟩ := resolveBlock_cases resolver contextPath source b
  · rw [hb, hb]
  · rw [hb, resolveBlock_inlines resolver contextPath source h]

end Blocks

/-! ## Values -/

section Values

variable (v : ReconciledValue)

/-- What is done to a block of a value. -/
def resolveOwn (b : Block) : Reported Block :=
  resolveBlock resolver contextPath (resolveValue.givenSource b v) b

/-- What is done to a variant of a value. -/
def resolveVariant (e : Tag × List Block) : Reported (Tag × List Block) :=
  let blocks := mapReported (resolveOwn resolver contextPath v) e.2
  ((e.1, blocks.1), blocks.2)

theorem resolveOwn_resolveOwn (b : Block) :
    resolveOwn resolver contextPath v (resolveOwn resolver contextPath v b).1 =
      resolveOwn resolver contextPath v b := by
  have hsource : resolveValue.givenSource (resolveOwn resolver contextPath v b).1 v =
      resolveValue.givenSource b v := by
    rw [resolveValue.givenSource, resolveOwn, source_resolveBlock, resolveValue.givenSource]
  rw [resolveOwn, hsource]
  exact resolveBlock_resolveBlock resolver contextPath _ b

theorem resolveVariant_resolveVariant (e : Tag × List Block) :
    resolveVariant resolver contextPath v (resolveVariant resolver contextPath v e).1 =
      resolveVariant resolver contextPath v e := by
  have hblocks := mapReported_mapReported (resolveOwn_resolveOwn resolver contextPath v) e.2
  simp only [resolveVariant, hblocks]

variable {v}

theorem resolveValue_of_isEmpty (h : v.hasContent = false) :
    resolveValue resolver contextPath v = (v, []) :=
  if_neg (by rw [h]; exact Bool.false_ne_true)

/-- Resolving a value resolves its variants in order. -/
theorem resolveValue_of_hasContent (h : v.hasContent = true) :
    resolveValue resolver contextPath v =
      let entries := mapReported (resolveVariant resolver contextPath v) v.content.sorted
      ({ v with content := ⟨entries.1⟩ }, entries.2) :=
  if_pos h

/-- The variants of a resolved value are those of the value, block by block. -/
theorem resolveVariants_eq_map :
    ⟨(mapReported (resolveVariant resolver contextPath v) v.content.sorted).1⟩ =
      v.content.map (·.map fun b => (resolveOwn resolver contextPath v b).1) := by
  refine congrArg Variants.mk ?_
  rw [mapReported_fst]
  exact List.map_congr_left fun e _ => congrArg (Prod.mk e.1) (mapReported_fst _ _)

/-- The variants of a resolved value stand in order. -/
theorem sorted_resolveVariants :
    Variants.sorted ⟨(mapReported (resolveVariant resolver contextPath v) v.content.sorted).1⟩ =
      (mapReported (resolveVariant resolver contextPath v) v.content.sorted).1 := by
  rw [resolveVariants_eq_map, Variants.sorted_map, ← resolveVariants_eq_map]

variable (v)

/-- **Resolving a value changes nothing but segments of prose.** -/
theorem isAnnotated_resolveValue : v.IsAnnotated (resolveValue resolver contextPath v).1 := by
  cases h : v.hasContent with
  | false =>
    rw [resolveValue_of_isEmpty resolver contextPath h]
    exact ⟨rfl, rfl, fun _ => rfl⟩
  | true =>
    rw [resolveValue_of_hasContent resolver contextPath h]
    dsimp only
    rw [resolveVariants_eq_map]
    refine ⟨?_, ?_, fun hempty => absurd (h.symm.trans hempty) (by decide)⟩
    · refine congrArg (fun content => { v with content }) ?_
      rw [Variants.map_map]
      refine congrArg (Variants.map · v.content) (funext fun blocks => ?_)
      rw [Function.comp_apply, List.map_map]
      exact List.map_congr_left fun b _ => bare_resolveBlock resolver contextPath _ b
    · exact congrArg not (Variants.isEmpty_map v.content fun _ => List.isEmpty_map)

theorem resolveValue_resolveValue :
    resolveValue resolver contextPath (resolveValue resolver contextPath v).1 =
      resolveValue resolver contextPath v := by
  cases h : v.hasContent with
  | false => rw [resolveValue_of_isEmpty resolver contextPath h, resolveValue_of_isEmpty _ _ h]
  | true =>
    have hcontent := (isAnnotated_resolveValue resolver contextPath v).hasContent.trans h
    rw [resolveValue_of_hasContent resolver contextPath h] at hcontent ⊢
    rw [resolveValue_of_hasContent resolver contextPath hcontent]
    -- Of the value, what is done to a variant reads no more than the source.
    change (let entries := mapReported (resolveVariant resolver contextPath v) (Variants.sorted _)
      (({ v with content := ⟨entries.1⟩ } : ReconciledValue), entries.2)) = _
    rw [sorted_resolveVariants,
      mapReported_mapReported (resolveVariant_resolveVariant resolver contextPath v)]

end Values

/-- **Resolving values adds segments to prose and reports each reference that leads nowhere**, once
and in order, and resolving them again does the same. -/
theorem resolveAll_isResolution (vs : List ReconciledValue) :
    IsResolution resolver contextPath vs (resolveAll resolver contextPath vs) where
  values := by
    rw [resolveAll, mapReported_fst, List.forall₂_map_right_iff, List.forall₂_same]
    exact fun v _ => isAnnotated_resolveValue resolver contextPath v
  diagnostics := by
    rw [resolveAll, mapReported_snd]
    refine congrArg (List.flatMap · vs) (funext fun v => ?_)
    simp only [resolveValue_snd, resolveBlock_snd]
  variants v _ := v.content.isStableSort_sorted
  references b := by
    unfold unresolvedIn
    split
    · exact .nil
    · exact (Reference.pairwise_findFrom 0 _).filter _
  again := mapReported_mapReported (resolveValue_resolveValue resolver contextPath) vs

end Resolution
end ValueDocs
