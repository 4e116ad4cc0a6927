import ValueDocs.Pass
import ValueDocs.Proofs.Alignment
import ValueDocs.Proofs.ResolvedContent

/-!
# Proofs/RenderedPlan — a page shows what was written about its values

A declared value has content exactly when the first value about it in some variant says something
(`IsReconciled.hasContent_iff`), and resolving references neither adds nor takes away content.  So
what authors wrote decides the mode of a page.  The plan of either mode shows the values in their
order, in the detailed one each with all the blocks of its variant (`presents_ofValues`), which are
those written for it or else what stands in for them (`Variants.offers_get`).  Both hold of a whole
pass (`run_isRendering`).
-/

namespace ValueDocs

/-! ## What a page is to show -/

/-- Whether blocks are those to show for a variant: those it was given, or else those of the primary
variant, or else those of the first tag that has any. -/
inductive Variants.Offers (v : Variants) (tag : Tag) : List Block → Prop
  | requested {blocks : List Block} (given : (tag, blocks) ∈ v.entries) : Offers v tag blocks
  | primary {blocks : List Block} (missing : tag ∉ v.tags) (given : (none, blocks) ∈ v.entries) :
    Offers v tag blocks
  | first {t : Tag} {blocks : List Block} (missing : tag ∉ v.tags) (noPrimary : none ∉ v.tags)
    (given : (t, blocks) ∈ v.entries) (filled : blocks ≠ [])
    (least : ∀ e ∈ v.entries, e.2 ≠ [] → t.rank ≤ e.1.rank) : Offers v tag blocks
  | nothing (missing : tag ∉ v.tags) (noPrimary : none ∉ v.tags)
    (empty : ∀ e ∈ v.entries, e.2 = []) : Offers v tag []

/-- Whether a text is that of a block: the texts of its segments together, if it has segments. -/
inductive Block.HasText (b : Block) : String → Prop
  | whole (inlines_eq_nil : b.inlines = []) : HasText b b.text
  | joined (inlines_ne_nil : b.inlines ≠ []) : HasText b (String.join (b.inlines.map (·.text)))

/-- Whether a rendered value shows blocks: of a leading short description the text, and all other
blocks as they are. -/
inductive RenderedValue.Shows (name : String) : List Block → RenderedValue → Prop
  | described (b : Block) (bs : List Block) (kind : b.kind = .description) {text : String}
    (text_of : b.HasText text) : Shows name (b :: bs) ⟨name, text, bs⟩
  | plain (bs : List Block) (kind : ∀ b ∈ bs.head?, b.kind ≠ .description) :
    Shows name bs ⟨name, "", bs⟩

/-- Whether rendered values show reconciled ones in a variant, each in its place. -/
def RenderedValue.ShowAll (tag : Tag) (values : List ReconciledValue)
    (items : List RenderedValue) : Prop :=
  List.Forall₂ (fun v item => ∃ blocks, v.content.Offers tag blocks ∧ item.Shows v.name blocks)
    values items

/-- The other attributes of a symbol, as its page lists them. -/
def ExtraAttribute.listed (extra : List ExtraAttribute) : List Attribute :=
  extra.map fun a => .other a.kind a.value

/-- Whether a plan presents values in a variant, with the other attributes of their symbol. -/
inductive RenderPlan.Presents (tag : Tag) (extra : List ExtraAttribute)
    (values : List ReconciledValue) : RenderPlan → Prop
  | compact : Presents tag extra values ⟨.compact,
      [.attributes (.allowedValues (values.map (·.name)) :: ExtraAttribute.listed extra)]⟩
  | detailed {items : List RenderedValue} (items_show : RenderedValue.ShowAll tag values items)
    (extra_eq_nil : extra = []) :
    Presents tag extra values ⟨.detailed, [.possibleValues items]⟩
  | detailedWithAttributes {items : List RenderedValue}
    (items_show : RenderedValue.ShowAll tag values items) (extra_ne_nil : extra ≠ []) :
    Presents tag extra values
      ⟨.detailed, [.attributes (ExtraAttribute.listed extra), .possibleValues items]⟩

namespace Reconciliation

variable (caseSensitive : Bool) (documented : List DocumentedValue) (declared : List DeclaredValue)

/-- Whether something is said about a declared value: in some variant the first value about it has
a short description or prose. -/
def IsDescribed (d : DeclaredValue) : Prop :=
  ∃ tag w, IsFirst (fun w => IsOwner caseSensitive declared w.name d ∧ w.variant = tag)
    documented w ∧ (w.shortDescription ≠ "" ∨ w.prose ≠ [])

end Reconciliation

/-- Whether a result shows the declared values with what authors wrote about them. -/
structure PassResult.IsRendering (input : PassInput) (documented : List DocumentedValue)
    (declared : List DeclaredValue) (r : PassResult) : Prop where
  /-- What is said about the values decides the mode, with a resolver or without. -/
  mode : r.plan.mode = .detailed ↔ ∃ d ∈ declared,
    Reconciliation.IsDescribed input.config.caseSensitive documented declared d
  /-- The values are the declared ones in order, with their content resolved. -/
  values : ∃ ordered, IsStableSort (·.order.value) declared ordered ∧
    List.Forall₂ (fun d v => v.name = d.name ∧ ∃ u : ReconciledValue,
      Reconciliation.IsReconciled input.config.caseSensitive documented declared d u ∧
        u.IsAnnotated v) ordered r.values
  /-- What authors wrote about a value is its short description, unless it is empty, and its
  prose. -/
  written : ∀ w ∈ documented, w.contentBlocks.map (fun b => (b.kind, b.text)) =
    (if w.shortDescription = "" then [] else [(.description, w.shortDescription)]) ++
      w.prose.map fun b => (b.kind, b.text)
  presents : r.plan.Presents input.variant input.extraAttributes r.values

/-! ## The blocks of a variant -/

namespace Variants

variable {v : Variants} {tag : Tag}

theorem mem_of_get?_eq_some {blocks : List Block} (h : v.get? tag = some blocks) :
    (tag, blocks) ∈ v.entries := by
  obtain ⟨before, after, hentries, -⟩ := List.lookup_eq_some_iff.1 h
  simp [hentries]

theorem notMem_tags_of_get?_eq_none (h : v.get? tag = none) : tag ∉ v.tags := by
  rintro hmem
  obtain ⟨e, he, rfl⟩ := List.mem_map.1 hmem
  simpa using List.lookup_eq_none_iff.1 h e he

/-- **The blocks shown for a variant are those it offers.** -/
theorem offers_get (v : Variants) (tag : Tag) : v.Offers tag (v.get tag) := by
  have hsorted := v.isStableSort_sorted
  unfold get
  split
  · next blocks hget => exact .requested (mem_of_get?_eq_some hget)
  · next hrequested =>
    have hmissing := notMem_tags_of_get?_eq_none hrequested
    split
    · next blocks hget => exact .primary hmissing (mem_of_get?_eq_some hget)
    · next hprimary =>
      have hnoPrimary := notMem_tags_of_get?_eq_none hprimary
      cases hfirst : v.sorted.find? fun e => !e.2.isEmpty with
      | none =>
        refine .nothing hmissing hnoPrimary fun e he => ?_
        simpa using List.find?_eq_none.1 hfirst e (hsorted.perm.mem_iff.2 he)
      | some e =>
        obtain ⟨hfilled, before, after, heq, hbefore⟩ := List.find?_eq_some_iff_append.1 hfirst
        have he : e ∈ v.entries := hsorted.perm.subset (List.mem_of_find?_eq_some hfirst)
        refine .first hmissing hnoPrimary he (by simpa using hfilled) fun f hf hfilled' => ?_
        -- an entry with blocks is not before the first one that has any
        have hmem := hsorted.perm.mem_iff.2 hf
        rw [heq] at hmem
        rcases List.mem_append.1 hmem with hbf | hbf
        · simpa [hfilled'] using hbefore f hbf
        · have hpair := heq ▸ hsorted.ascending
          rcases List.mem_cons.1 hbf with rfl | haf
          · exact le_rfl
          · exact List.rel_of_pairwise_cons (List.pairwise_append.1 hpair).2.1 haf

end Variants

/-! ## The mode -/

/-- What a documented value says is something exactly when it has a description or prose. -/
theorem DocumentedValue.contentBlocks_ne_nil_iff {w : DocumentedValue} :
    w.contentBlocks ≠ [] ↔ w.shortDescription ≠ "" ∨ w.prose ≠ [] := by
  rw [contentBlocks, descriptionBlock?]
  split <;> simp_all

theorem DocumentedValue.map_contentBlocks (w : DocumentedValue) :
    w.contentBlocks.map (fun b => (b.kind, b.text)) =
      (if w.shortDescription = "" then [] else [(.description, w.shortDescription)]) ++
        w.prose.map fun b => (b.kind, b.text) := by
  rw [contentBlocks, descriptionBlock?, List.map_append, List.map_map]
  split <;> rfl

theorem ReconciledValue.hasContent_iff {v : ReconciledValue} :
    v.hasContent = true ↔ ∃ e ∈ v.content.entries, e.2 ≠ [] := by
  simp [hasContent, Variants.isEmpty]

namespace Reconciliation

variable {caseSensitive : Bool} {documented : List DocumentedValue} {declared : List DeclaredValue}

/-- **A declared value has content exactly when something is said about it.** -/
theorem IsReconciled.hasContent_iff {d : DeclaredValue} {v : ReconciledValue}
    (h : IsReconciled caseSensitive documented declared d v) :
    v.hasContent = true ↔ IsDescribed caseSensitive documented declared d := by
  rw [ReconciledValue.hasContent_iff]
  constructor
  · rintro ⟨⟨tag, blocks⟩, he, hblocks⟩
    obtain ⟨w, hw, rfl⟩ := (h.content tag blocks).1 ((Variants.get?_eq_some_iff h.nodup_tags).2 he)
    exact ⟨tag, w, hw, DocumentedValue.contentBlocks_ne_nil_iff.1 hblocks⟩
  · rintro ⟨tag, w, hw, hsays⟩
    have hget := (h.content tag w.contentBlocks).2 ⟨w, hw, rfl⟩
    exact ⟨_, (Variants.get?_eq_some_iff h.nodup_tags).1 hget,
      DocumentedValue.contentBlocks_ne_nil_iff.2 hsays⟩

end Reconciliation

namespace RenderPlan

variable (tag : Tag) (extra : List ExtraAttribute) (values : List ReconciledValue)

theorem mode_ofValues : (ofValues tag extra values).mode = .detailed ↔
    ∃ v ∈ values, v.hasContent = true := by
  rw [← List.any_eq_true, ofValues, chooseMode]
  split <;> simp_all

/-! ## The sections -/

theorem Block.hasText_blockText (b : Block) : b.HasText (Resolution.blockText b) := by
  unfold Resolution.blockText
  split
  · next h => exact .whole (List.isEmpty_iff.1 h)
  · next h => exact .joined fun hnil => h (List.isEmpty_iff.2 hnil)

theorem shows_renderValue (v : ReconciledValue) :
    (renderValue tag v).Shows v.name (v.content.get tag) := by
  rw [renderValue, ReconciledValue.description?, ReconciledValue.prose]
  rcases v.content.get tag with _ | ⟨b, bs⟩
  · exact .plain [] (by simp)
  · by_cases hkind : b.kind = .description
    · simpa [hkind, Option.filter] using
        @RenderedValue.Shows.described v.name b bs hkind _ (Block.hasText_blockText b)
    · simpa [hkind, Option.filter] using
        @RenderedValue.Shows.plain v.name (b :: bs) (by simpa using hkind)

/-- **The plan of values presents them**: all their names, or each of them with all of its blocks
next to the other attributes. -/
theorem presents_ofValues : (ofValues tag extra values).Presents tag extra values := by
  have hitems : RenderedValue.ShowAll tag values (values.map (renderValue tag)) :=
    List.forall₂_map_right_iff.2 (List.forall₂_same.2 fun v _ =>
      ⟨_, v.content.offers_get tag, shows_renderValue tag v⟩)
  rw [ofValues]
  split
  · exact .compact
  · rcases extra with _ | ⟨a, extra⟩
    · exact .detailed hitems rfl
    · exact .detailedWithAttributes hitems (List.cons_ne_nil a extra)

end RenderPlan

/-! ## The pass -/

theorem exists_mem_iff_of_forall₂ {α β : Type} {p : α → Prop} {q : β → Prop} {xs : List α}
    {ys : List β} (h : List.Forall₂ (fun x y => p x ↔ q y) xs ys) :
    (∃ x ∈ xs, p x) ↔ ∃ y ∈ ys, q y := by
  induction h with
  | nil => simp
  | cons hxy _ ih => simp only [List.exists_mem_cons_iff, hxy, ih]

namespace Pass

variable (input : PassInput) (documented : List DocumentedValue) (declared : List DeclaredValue)

/-- The values of a pass are those of its reconciliation, with their content resolved. -/
theorem isAnnotated_values_align : List.Forall₂ ReconciledValue.IsAnnotated
    (Reconciliation.reconcile input.config.caseSensitive documented declared).values
    (align input documented declared).values := by
  unfold align
  cases input.resolver with
  | none => exact List.forall₂_same.2 fun v _ => ⟨rfl, rfl, fun _ => rfl⟩
  | some resolver => exact (Resolution.resolveAll_isResolution resolver _ _).values

variable {input documented declared}

/-- **A page shows what was written about its values.**  The mode follows from what is said about
them, and the plan presents each with the content it has. -/
theorem run_isRendering
    (hdocumented : documentedValues input.config input.source input.lineOffset
      input.documentation = .ok documented)
    (hdeclared : input.declared.toValues = .ok declared)
    (hnames : (declared.map (·.name)).Nodup) :
    ∃ r, run input = .ok r ∧ r.IsRendering input documented declared := by
  obtain ⟨ordered, hordered, hreconciled, -⟩ :=
    (@Reconciliation.reconcile_isAlignment input.config.caseSensitive documented declared
      hnames).1.ordered
  have hvalues : List.Forall₂ (fun d v => v.name = d.name ∧ ∃ u : ReconciledValue,
      Reconciliation.IsReconciled input.config.caseSensitive documented declared d u ∧
        u.IsAnnotated v) ordered (align input documented declared).values := by
    refine Reconciliation.forall₂_of_common (fun u d v hu hv => ⟨?_, u, hu, hv⟩) hreconciled.flip
      (isAnnotated_values_align input documented declared)
    exact (congrArg (·.name) hv.bare).trans hu.name
  refine ⟨align input documented declared, ?_, ?_, ⟨ordered, hordered, hvalues⟩,
    fun w _ => w.map_contentBlocks, ?_⟩
  · rw [run, hdocumented, hdeclared]
    rfl
  · have hdescribed : List.Forall₂ (fun d v =>
        Reconciliation.IsDescribed input.config.caseSensitive documented declared d ↔
          v.hasContent = true) ordered (align input documented declared).values := by
      refine hvalues.imp fun d v ⟨_, u, hu, hv⟩ => ?_
      rw [hv.hasContent, hu.hasContent_iff]
    change (RenderPlan.ofValues _ _ (align input documented declared).values).mode = _ ↔ _
    rw [RenderPlan.mode_ofValues, ← exists_mem_iff_of_forall₂ hdescribed]
    simp only [hordered.perm.mem_iff]
  · exact RenderPlan.presents_ofValues _ _ _

/-- Months in several variants, one of them with its name alone in the primary one. -/
def describedMonths : List DocumentedValue :=
  [{ name := "April", shortDescription := "Fourth." },
    { name := "April", shortDescription := "In ``Spring``.", variant := some "swift",
      prose := [⟨.code, "``x``", none, [], [], none⟩] },
    { name := "April", shortDescription := "Late.", variant := some "swift" },
    { name := "May" }, { name := "May", shortDescription := "Fifth.", variant := some "objc" },
    { name := "June", shortDescription := "Sixth.", variant := some "objc" },
    { name := "June", variant := some "cpp",
      prose := [⟨.paragraph, "See ``Day``.", none, [], [], none⟩] }]

/-- Three months, the last one declared first. -/
def declaredMonths : List DeclaredValue :=
  [⟨"June", .whole 6⟩, ⟨"April", .whole 4⟩, ⟨"May", .whole 5⟩]

/-- A pass over these months that renders one of the variants. -/
def describedMonthsInput : PassInput where
  symbol := "Month"
  documentation := .values describedMonths
  declared := .values declaredMonths
  resolver := some fun r _ => if r.target = "Spring" then some ⟨"/Spring", "spring"⟩ else none
  variant := some "swift"
  extraAttributes := [⟨"default", .str "May"⟩]

/-- The months with their references resolved. -/
def resolvedMonths : List ReconciledValue :=
  [⟨"April", .whole 4, ⟨[
      (none, [⟨.description, "Fourth.", none, [], [⟨.text, "Fourth.", none⟩], none⟩]),
      (some "swift", [⟨.description, "In ``Spring``.", none, [],
        [⟨.text, "In ", none⟩, ⟨.reference, "spring", some "/Spring"⟩, ⟨.text, ".", none⟩], none⟩,
        ⟨.code, "``x``", none, [], [], none⟩])]⟩, none⟩,
    ⟨"May", .whole 5, ⟨[(none, []),
      (some "objc", [⟨.description, "Fifth.", none, [], [⟨.text, "Fifth.", none⟩], none⟩])]⟩, none⟩,
    ⟨"June", .whole 6, ⟨[
      (some "cpp", [⟨.paragraph, "See ``Day``.", none, [],
        [⟨.text, "See ", none⟩, ⟨.codeVoice, "Day", none⟩, ⟨.text, ".", none⟩], none⟩]),
      (some "objc", [⟨.description, "Sixth.", none, [], [⟨.text, "Sixth.", none⟩], none⟩])]⟩,
      none⟩]

/-- The months as they are shown: April in the variant, May in the primary one, which has nothing to
show, and June in the first one that has. -/
def shownMonths : List RenderedValue :=
  [⟨"April", "In spring.", [⟨.code, "``x``", none, [], [], none⟩]⟩, ⟨"May", "", []⟩,
    ⟨"June", "", [⟨.paragraph, "See ``Day``.", none, [],
      [⟨.text, "See ", none⟩, ⟨.codeVoice, "Day", none⟩, ⟨.text, ".", none⟩], none⟩]⟩]

theorem run_isRendering_describedMonths : (declaredMonths.map (·.name)).Nodup ∧
    ∃ r, run describedMonthsInput = .ok r ∧
      r.IsRendering describedMonthsInput describedMonths declaredMonths ∧
      r.values = resolvedMonths ∧ r.plan = ⟨.detailed,
        [.attributes [.other "default" (.str "May")], .possibleValues shownMonths]⟩ := by
  have hnames : (declaredMonths.map (·.name)).Nodup := by decide
  obtain ⟨r, hrun, hrendering⟩ :=
    @run_isRendering describedMonthsInput describedMonths declaredMonths rfl rfl hnames
  obtain rfl : align describedMonthsInput describedMonths declaredMonths = r := Except.ok.inj hrun
  -- sorting is not evaluated, so it is rewritten away wherever it is done
  have hordered : declaredMonths.mergeSort (fun a b => a.order.le b.order) =
      [⟨"April", .whole 4⟩, ⟨"May", .whole 5⟩, ⟨"June", .whole 6⟩] := by
    simp [declaredMonths, List.mergeSort, List.MergeSort.Internal.splitInTwo, Rank.le_whole]
  have hsorted (e f : Tag × List Block) :
      Variants.sorted ⟨[e, f]⟩ = if e.1.le f.1 then [e, f] else [f, e] := by
    simp [Variants.sorted, List.mergeSort, List.MergeSort.Internal.splitInTwo, List.merge]
  have hreconciled : (Reconciliation.reconcile true describedMonths declaredMonths).values =
      [⟨"April", .whole 4, ⟨[(none, describedMonths[0].contentBlocks),
          (some "swift", describedMonths[1].contentBlocks)]⟩, none⟩,
        ⟨"May", .whole 5, ⟨[(none, []), (some "objc", describedMonths[4].contentBlocks)]⟩, none⟩,
        ⟨"June", .whole 6, ⟨[(some "objc", describedMonths[5].contentBlocks),
          (some "cpp", describedMonths[6].contentBlocks)]⟩, none⟩] := by
    rw [Reconciliation.reconcile, hordered]
    rfl
  have hvalues : (align describedMonthsInput describedMonths declaredMonths).values =
      resolvedMonths := by
    change (Resolution.mapReported _
      (Reconciliation.reconcile true describedMonths declaredMonths).values).1 = _
    rw [Resolution.mapReported_fst, hreconciled]
    simp only [List.map_cons, List.map_nil, Resolution.resolveValue, hsorted]
    decide +kernel
  have hitems : resolvedMonths.map (RenderPlan.renderValue (some "swift")) = shownMonths := by
    simp only [resolvedMonths, List.map_cons, List.map_nil, RenderPlan.renderValue,
      ReconciledValue.description?, ReconciledValue.prose, Variants.get, hsorted]
    decide +kernel
  refine ⟨hnames, _, hrun, hrendering, hvalues, ?_⟩
  change RenderPlan.ofValues (some "swift") _
    (align describedMonthsInput describedMonths declaredMonths).values = _
  rw [hvalues, RenderPlan.ofValues, hitems]
  rfl

end Pass
end ValueDocs
