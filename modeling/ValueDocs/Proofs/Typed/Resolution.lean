import ValueDocs.Loose.Pass
import ValueDocs.Proofs.Typed.Values

/-!
# Proofs/Typed/Resolution — content of texts, as the checks resolve and render it

References in texts become the same links with the same reports, whether the text is one or is found
in a record (`Resolution.resolveAll_toLoose`), and resolved values have the same plan
(`RenderPlan.ofValues_toLoose`).
-/

namespace ValueDocs

namespace Resolution

/-- Something with the diagnostics met on the way, as records hold it. -/
def Reported.toLoose {α β : Type} (f : α → β) (x : Reported α) : Loose.Resolution.Reported β :=
  (f x.1, x.2.map Diagnostic.toLoose)

theorem mapReported_toLoose {α β γ δ : Type} {e : α → γ} {g : β → δ} {f : α → Reported β}
    {f' : γ → Outcome (Loose.Resolution.Reported δ)} {xs : List α}
    (h : ∀ x ∈ xs, f' (e x) = .ok (Reported.toLoose g (f x))) :
    Loose.Resolution.mapReported f' (xs.map e) =
      .ok (Reported.toLoose (List.map g) (mapReported f xs)) := by
  induction xs with
  | nil => rfl
  | cons x xs ih =>
    obtain ⟨hx, hxs⟩ := List.forall_mem_cons.1 h
    simp only [List.map_cons, Loose.Resolution.mapReported, hx, ih hxs, bind, Except.bind, pure,
      Except.pure, mapReported, Reported.toLoose, List.map_append]

section

variable (resolver : Resolver) (path : String) (source : Option String) (b : Block) (r : Reference)

theorem referenceRange_toLoose :
    Loose.Resolution.referenceRange b.toLoose r =
      .ok ((referenceRange b r).map Range.toLoose) := by
  simp only [Loose.Resolution.referenceRange, Block.positionOf?_toLoose, bind, Except.bind,
    referenceRange]
  cases b.positionOf? r.start <;> cases b.positionOf? r.stop <;> rfl

theorem unresolved_toLoose :
    Loose.Resolution.unresolved b.toLoose r path (.ofText? source) =
      .ok (unresolved b r path source).toLoose := by
  rw [Loose.Resolution.unresolved, referenceRange_toLoose]
  rfl

theorem segmentOf_toLoose :
    Loose.Resolution.segmentOf resolver.toLoose path (.ofText? source) b.toLoose r =
      .ok ((segmentOf resolver path source b r).toLoose Segment.toLoose) := by
  simp only [Loose.Resolution.segmentOf, Resolver.toLoose, bind, Except.bind, unresolved_toLoose,
    segmentOf]
  cases resolver r path <;> rfl

theorem plain_toLoose (text : List Char) :
    Loose.Resolution.plain text = (plain text).map Segment.toLoose := by
  rw [Loose.Resolution.plain, plain]
  split <;> rfl

theorem segments_toLoose {f : Reference → Reported Segment}
    {f' : Reference → Outcome (Loose.Resolution.Reported Loose.Segment)}
    (h : ∀ r, f' r = .ok ((f r).toLoose Segment.toLoose)) (cursor : Nat) (text : List Char)
    (rs : List Reference) :
    Loose.Resolution.segments f' cursor text rs =
      .ok ((segments f cursor text rs).toLoose (List.map Segment.toLoose)) := by
  induction rs generalizing cursor text with
  | nil => rw [Loose.Resolution.segments, segments, plain_toLoose]; rfl
  | cons r rs ih =>
    simp only [Loose.Resolution.segments, h, ih, bind, Except.bind, pure, Except.pure, segments,
      Reported.toLoose, plain_toLoose, List.map_append, List.map_cons]

theorem resolveBlock_toLoose :
    Loose.Resolution.resolveBlock resolver.toLoose path (.ofText? source) b.toLoose =
      .ok ((resolveBlock resolver path source b).toLoose Block.toLoose) := by
  rw [Loose.Resolution.resolveBlock, resolveBlock, show b.toLoose.kind = b.kind from rfl]
  by_cases h : b.kind = .code
  · rw [if_pos h, if_pos h]
    rfl
  · rw [if_neg h, if_neg h]
    have hsegments := segments_toLoose (segmentOf_toLoose resolver path source b) 0 b.text.toList
      (Reference.find b.text)
    simp only [show b.toLoose.text.text = .ok b.text from rfl, bind, Except.bind, pure,
      Except.pure, hsegments]
    rfl

end

variable (resolver : Resolver) (path : String)

/-- The source of a block, as a record holds it. -/
theorem orElse_ofText? (b : Block) (v : ReconciledValue) :
    (Json.ofText? b.source).orElse (.ofText? v.source) = .ofText? (resolveValue.givenSource b v) := by
  rw [resolveValue.givenSource]
  split
  · next h => rw [h]; rfl
  · next h => rw [h]; rfl
  · next s hs h =>
    have hne : s ≠ "" := hs
    simp [h, Json.orElse, Json.ofText?, Json.truthy, hne]

/-- A variant with its content resolved. -/
def resolveEntry (v : ReconciledValue) (e : Tag × List Block) : Reported (Tag × List Block) :=
  let (blocks, ds) := mapReported
    (fun b => resolveBlock resolver path (resolveValue.givenSource b v) b) e.2
  ((e.1, blocks), ds)

theorem resolveEntry_toLoose (v : ReconciledValue) (e : Tag × List Block) :
    Loose.Resolution.resolveEntry resolver.toLoose path v.toLoose.source
      (Variants.entryToLoose e) =
        .ok ((resolveEntry resolver path v e).toLoose Variants.entryToLoose) := by
  have hblocks : Loose.Resolution.mapReported (fun b => Loose.Resolution.resolveBlock
      resolver.toLoose path (b.source.orElse v.toLoose.source) b) (e.2.map Block.toLoose) =
        .ok (Reported.toLoose (List.map Block.toLoose) (mapReported
          (fun b => resolveBlock resolver path (resolveValue.givenSource b v) b) e.2)) :=
    mapReported_toLoose fun b _ => by
      rw [show b.toLoose.source.orElse v.toLoose.source = _ from orElse_ofText? b v]
      exact resolveBlock_toLoose resolver path _ b
  simp only [Loose.Resolution.resolveEntry, Variants.entryToLoose, hblocks, bind, Except.bind]
  rfl

theorem resolveValue_toLoose (v : ReconciledValue) :
    Loose.Resolution.resolveValue resolver.toLoose path v.toLoose =
      .ok ((resolveValue resolver path v).toLoose ReconciledValue.toLoose) := by
  rw [Loose.Resolution.resolveValue, resolveValue, ReconciledValue.hasContent_toLoose]
  by_cases h : v.hasContent = true
  · have hentries := mapReported_toLoose fun e (_ : e ∈ v.content.sorted) =>
      resolveEntry_toLoose resolver path v e
    rw [if_pos h, if_pos h, show v.toLoose.content = v.content.toLoose from rfl,
      Variants.sorted_toLoose]
    simp only [bind, Except.bind, hentries]
    rfl
  · rw [if_neg h, if_neg h]
    rfl

/-- **References in texts become the same links**, with the same reports. -/
theorem resolveAll_toLoose (vs : List ReconciledValue) :
    Loose.Resolution.resolveAll resolver.toLoose path (vs.map ReconciledValue.toLoose) =
      .ok ((resolveAll resolver path vs).toLoose (List.map ReconciledValue.toLoose)) :=
  mapReported_toLoose fun v _ => resolveValue_toLoose resolver path v

/-! ## Rendering -/

theorem blockText_toLoose (b : Block) :
    Loose.Resolution.blockText b.toLoose = .ok (blockText b) := by
  rw [Loose.Resolution.blockText, blockText]
  have hempty : b.toLoose.inlines.isEmpty = b.inlines.isEmpty := by simp [Block.toLoose]
  have htexts : b.toLoose.inlines.mapM (·.text.text) = .ok (b.inlines.map (·.text)) := by
    rw [Outcome.mapM_eq_ok_iff, show b.toLoose.inlines = b.inlines.map Segment.toLoose from rfl,
      List.forall₂_map_left_iff, List.forall₂_map_right_iff]
    exact List.forall₂_same.2 fun s _ => rfl
  rw [hempty, htexts]
  split <;> rfl

end Resolution

namespace RenderPlan

theorem renderValue_toLoose (tag : Tag) (v : ReconciledValue) :
    Loose.RenderPlan.renderValue (.ofText? tag) v.toLoose =
      .ok (renderValue tag v).toLoose := by
  simp only [Loose.RenderPlan.renderValue, ReconciledValue.description?_toLoose,
    ReconciledValue.prose_toLoose, bind, Except.bind, renderValue]
  cases v.description? tag with
  | none => rfl
  | some b =>
    simp only [Option.map_some, Resolution.blockText_toLoose]
    rfl

theorem chooseMode_toLoose (vs : List ReconciledValue) :
    Loose.RenderPlan.chooseMode (vs.map ReconciledValue.toLoose) = chooseMode vs := by
  have hany : (vs.map ReconciledValue.toLoose).any (·.hasContent) = vs.any (·.hasContent) := by
    rw [List.any_map]
    exact congrArg₂ _ rfl (funext ReconciledValue.hasContent_toLoose)
  rw [Loose.RenderPlan.chooseMode, chooseMode, hany]

/-- **Values of texts have the plan that they have in records.** -/
theorem ofValues_toLoose (tag : Tag) (extra : List ExtraAttribute) (vs : List ReconciledValue) :
    Loose.RenderPlan.ofValues (.ofText? tag) (extra.map ExtraAttribute.toLoose)
      (vs.map ReconciledValue.toLoose) = .ok (ofValues tag extra vs).toLoose := by
  have hrendered : (vs.map ReconciledValue.toLoose).mapM
      (Loose.RenderPlan.renderValue (.ofText? tag)) =
        .ok ((vs.map (renderValue tag)).map RenderedValue.toLoose) := by
    rw [Outcome.mapM_eq_ok_iff, List.map_map, List.forall₂_map_left_iff,
      List.forall₂_map_right_iff]
    exact List.forall₂_same.2 fun v _ => renderValue_toLoose tag v
  have hothers : (extra.map ExtraAttribute.toLoose).map Loose.ExtraAttribute.toAttribute =
      (extra.map ExtraAttribute.toAttribute).map Attribute.toLoose := by
    rw [List.map_map, List.map_map]
    rfl
  rw [Loose.RenderPlan.ofValues, ofValues, chooseMode_toLoose, hothers]
  cases chooseMode vs with
  | compact =>
    simp only [toLoose, Section.toLoose, Attribute.toLoose, List.map_cons, List.map_nil,
      List.map_map, pure, Except.pure]
    rfl
  | detailed =>
    simp only [hrendered, bind, Except.bind, pure, Except.pure, List.isEmpty_map]
    split <;> rfl

end RenderPlan
end ValueDocs
