import ValueDocs.Loose.Pass
import ValueDocs.Proofs.Json.Order
import ValueDocs.Proofs.Outcome

/-!
# Proofs/LoosePass — what a pass over records has done

A pass over records may fail at any of its steps.  One that gives a result has aligned the values,
turned references into links, planned the page and sorted what it reports
(`Loose.Pass.exists_of_align`).  It shows the declared values, under their names
(`Loose.Pass.map_name_of_align`), and each of its reports is about a value that is not declared or
about a reference that leads nowhere (`Loose.Pass.exists_of_mem_diagnostics`).
-/

namespace ValueDocs.Loose

/-! ## Items with reports -/

namespace Resolution

section

variable {α β : Type} {f : α → Outcome (Reported β)} {xs : List α} {ys : List β}
  {ds : List Diagnostic}

theorem mapReported_eq_ok_iff : mapReported f xs = .ok (ys, ds) ↔
    ∃ reported, xs.mapM f = .ok reported ∧ reported.map (·.1) = ys ∧
      reported.flatMap (·.2) = ds := by
  induction xs generalizing ys ds with
  | nil =>
    rw [mapReported, List.mapM_nil]
    constructor
    · rintro ⟨⟩
      exact ⟨[], rfl, rfl, rfl⟩
    · rintro ⟨_, ⟨⟩, rfl, rfl⟩
      rfl
  | cons x xs ih =>
    simp only [mapReported, List.mapM_cons, Outcome.bind_eq_ok_iff, Prod.exists]
    constructor
    · rintro ⟨y, es, hx, ys', es', hxs, h⟩
      obtain ⟨reported, hreported, rfl, rfl⟩ := ih.1 hxs
      obtain ⟨rfl, rfl⟩ := Prod.mk.inj (Except.ok.inj h)
      exact ⟨(y, es) :: reported, ⟨y, es, hx, reported, hreported, rfl⟩, rfl, rfl⟩
    · rintro ⟨_, ⟨y, es, hx, reported, hreported, h⟩, rfl, rfl⟩
      obtain rfl := Except.ok.inj h
      exact ⟨y, es, hx, _, _, ih.2 ⟨reported, hreported, rfl, rfl⟩, rfl⟩

/-- What is reported is reported for an item. -/
theorem exists_of_mem_mapReported (h : mapReported f xs = .ok (ys, ds)) {d : Diagnostic}
    (hd : d ∈ ds) : ∃ x ∈ xs, ∃ y es, f x = .ok (y, es) ∧ d ∈ es := by
  obtain ⟨reported, hreported, -, rfl⟩ := mapReported_eq_ok_iff.1 h
  obtain ⟨⟨y, es⟩, hmem, hd⟩ := List.mem_flatMap.1 hd
  obtain ⟨x, hx, hfx⟩ := Outcome.exists_of_mem_mapM hreported hmem
  exact ⟨x, hx, y, es, hfx, hd⟩

end

variable {resolver : Resolver} {path : String} {source : Json} {d : Diagnostic}
  {ds : List Diagnostic}

theorem name_of_resolveValue {v w : ReconciledValue}
    (h : resolveValue resolver path v = .ok (w, ds)) : w.name = v.name := by
  rw [resolveValue] at h
  split at h
  · obtain ⟨sorted, -, h⟩ := Outcome.bind_eq_ok_iff.1 h
    obtain ⟨⟨entries, es⟩, -, h⟩ := Outcome.bind_eq_ok_iff.1 h
    obtain ⟨rfl, -⟩ := Prod.mk.inj (Except.ok.inj h)
    rfl
  · obtain ⟨rfl, -⟩ := Prod.mk.inj (Except.ok.inj h)
    rfl

/-- **References that become links change no name.** -/
theorem map_name_of_resolveAll {vs ws : List ReconciledValue}
    (h : resolveAll resolver path vs = .ok (ws, ds)) : ws.map (·.name) = vs.map (·.name) := by
  obtain ⟨reported, hreported, rfl, -⟩ := mapReported_eq_ok_iff.1 h
  rw [List.map_map]
  exact Outcome.map_eq_of_mapM (fun hv => name_of_resolveValue hv) hreported

/-! ## References that lead nowhere -/

theorem exists_of_mem_segments {segmentOf : Reference → Outcome (Reported Segment)} {cursor : Nat}
    {text : List Char} {rs : List Reference} {segs : List Segment}
    (h : segments segmentOf cursor text rs = .ok (segs, ds)) (hd : d ∈ ds) :
    ∃ r ∈ rs, ∃ s es, segmentOf r = .ok (s, es) ∧ d ∈ es := by
  induction rs generalizing cursor text segs ds with
  | nil =>
    obtain ⟨-, rfl⟩ := Prod.mk.inj (Except.ok.inj h)
    cases hd
  | cons r rs ih =>
    obtain ⟨⟨s, es⟩, hr, h⟩ := Outcome.bind_eq_ok_iff.1 h
    obtain ⟨⟨more, es'⟩, hrs, h⟩ := Outcome.bind_eq_ok_iff.1 h
    obtain ⟨-, rfl⟩ := Prod.mk.inj (Except.ok.inj h)
    rcases List.mem_append.1 hd with hd | hd
    · exact ⟨r, List.mem_cons_self .., s, es, hr, hd⟩
    · obtain ⟨r', hr', hseg⟩ := ih hrs hd
      exact ⟨r', List.mem_cons_of_mem _ hr', hseg⟩

theorem unresolved_of_mem_segmentOf {b : Block} {r : Reference} {s : Segment}
    (h : segmentOf resolver path source b r = .ok (s, ds)) (hd : d ∈ ds) :
    unresolved b r path source = .ok d := by
  obtain ⟨link, -, h⟩ := Outcome.bind_eq_ok_iff.1 h
  cases link with
  | some link =>
    obtain ⟨-, rfl⟩ := Prod.mk.inj (Except.ok.inj h)
    cases hd
  | none =>
    obtain ⟨d', hd', h⟩ := Outcome.bind_eq_ok_iff.1 h
    obtain ⟨-, rfl⟩ := Prod.mk.inj (Except.ok.inj h)
    rwa [List.mem_singleton.1 hd]

theorem exists_of_mem_resolveBlock {b b' : Block}
    (h : resolveBlock resolver path source b = .ok (b', ds)) (hd : d ∈ ds) :
    ∃ r, unresolved b r path source = .ok d := by
  rw [resolveBlock] at h
  split at h
  · obtain ⟨-, rfl⟩ := Prod.mk.inj (Except.ok.inj h)
    cases hd
  · obtain ⟨text, -, h⟩ := Outcome.bind_eq_ok_iff.1 h
    obtain ⟨⟨inlines, es⟩, hsegments, h⟩ := Outcome.bind_eq_ok_iff.1 h
    obtain ⟨-, rfl⟩ := Prod.mk.inj (Except.ok.inj h)
    obtain ⟨r, -, s, es, hr, hd⟩ := exists_of_mem_segments hsegments hd
    exact ⟨r, unresolved_of_mem_segmentOf hr hd⟩

/-- **What is reported about content** is reported about a reference in one of its blocks. -/
theorem exists_of_mem_resolveAll {vs ws : List ReconciledValue}
    (h : resolveAll resolver path vs = .ok (ws, ds)) (hd : d ∈ ds) :
    ∃ v ∈ vs, ∃ e ∈ v.content.entries, ∃ b ∈ e.2, ∃ r,
      unresolved b r path (b.source.orElse v.source) = .ok d := by
  obtain ⟨v, hv, w, es, h, hd⟩ := exists_of_mem_mapReported h hd
  rw [resolveValue] at h
  split at h
  · obtain ⟨sorted, hsorted, h⟩ := Outcome.bind_eq_ok_iff.1 h
    obtain ⟨⟨entries, es⟩, hentries, h⟩ := Outcome.bind_eq_ok_iff.1 h
    obtain ⟨-, rfl⟩ := Prod.mk.inj (Except.ok.inj h)
    obtain ⟨e, he, _, _, hentry, hd⟩ := exists_of_mem_mapReported hentries hd
    obtain ⟨⟨blocks, es⟩, hblocks, hentry⟩ := Outcome.bind_eq_ok_iff.1 hentry
    obtain ⟨-, rfl⟩ := Prod.mk.inj (Except.ok.inj hentry)
    obtain ⟨b, hb, _, _, hblock, hd⟩ := exists_of_mem_mapReported hblocks hd
    obtain ⟨-, rfl⟩ := Json.sortedOn_eq_ok_iff.1 hsorted
    exact ⟨v, hv, e, (Json.sortOn_perm _ _).subset he, b, hb,
      exists_of_mem_resolveBlock hblock hd⟩
  · obtain ⟨-, rfl⟩ := Prod.mk.inj (Except.ok.inj h)
    cases hd

end Resolution

/-! ## The steps of a pass -/

namespace Pass

variable {input : PassInput} {documented : List DocumentedValue} {declared : List DeclaredValue}
  {r : PassResult}

/-- **A pass that gives a result** has done all its steps. -/
theorem exists_of_align (h : align input documented declared = .ok r) :
    ∃ unknown unresolved,
      Reconciliation.reconcile input.config.caseSensitive documented declared =
        .ok r.reconciliation ∧
      r.reconciliation.extra.mapM (Diagnostic.unknownValue input.config declared input.symbol) =
        .ok unknown ∧
      resolve input.resolver (contextPath input) r.reconciliation.values =
        .ok (r.values, unresolved) ∧
      RenderPlan.ofValues input.variant input.extraAttributes r.values = .ok r.plan ∧
      Diagnostic.sort (unknown ++ unresolved) = .ok r.diagnostics ∧
      r.symbol = input.symbol ∧ r.contextPath = contextPath input := by
  obtain ⟨reconciliation, hreconciliation, h⟩ := Outcome.bind_eq_ok_iff.1 h
  obtain ⟨unknown, hunknown, h⟩ := Outcome.bind_eq_ok_iff.1 h
  obtain ⟨⟨values, unresolved⟩, hvalues, h⟩ := Outcome.bind_eq_ok_iff.1 h
  obtain ⟨plan, hplan, h⟩ := Outcome.bind_eq_ok_iff.1 h
  obtain ⟨ds, hds, h⟩ := Outcome.bind_eq_ok_iff.1 h
  obtain rfl := Except.ok.inj h
  exact ⟨unknown, unresolved, hreconciliation, hunknown, hvalues, hplan, hds, rfl, rfl⟩

/-- A pass that gives a result aligns what it is given. -/
theorem exists_of_run (h : run input = .ok r) :
    ∃ documented declared,
      input.documentation.toValues input.config input.source input.lineOffset = .ok documented ∧
      input.declared.toValues = .ok declared ∧ align input documented declared = .ok r := by
  obtain ⟨documented, hdocumented, h⟩ := Outcome.bind_eq_ok_iff.1 h
  obtain ⟨declared, hdeclared, h⟩ := Outcome.bind_eq_ok_iff.1 h
  exact ⟨documented, declared, hdocumented, hdeclared, h⟩

theorem contextPath_of_run (h : run input = .ok r) : r.contextPath = contextPath input := by
  obtain ⟨_, _, -, -, h⟩ := exists_of_run h
  obtain ⟨_, _, -, -, -, -, -, -, hpath⟩ := exists_of_align h
  exact hpath

/-- **The values of a pass** have the names that are declared, in the order of declaration. -/
theorem map_name_of_align (h : align input documented declared = .ok r) :
    Json.sortedOn (·.order) declared = .ok (Json.sortOn (·.order) declared) ∧
      r.values.map (·.name) = (Json.sortOn (·.order) declared).map (·.name) := by
  obtain ⟨_, _, hreconcile, -, hvalues, -⟩ := exists_of_align h
  obtain ⟨keyed, -, hreconcile⟩ := Outcome.bind_eq_ok_iff.1 hreconcile
  obtain ⟨assigned, -, hreconcile⟩ := Outcome.bind_eq_ok_iff.1 hreconcile
  obtain ⟨ordered, hordered, hreconcile⟩ := Outcome.bind_eq_ok_iff.1 hreconcile
  obtain ⟨-, rfl⟩ := Json.sortedOn_eq_ok_iff.1 hordered
  have hnames : r.reconciliation.values.map (·.name) =
      (Json.sortOn (·.order) declared).map (·.name) := by
    rw [← Except.ok.inj hreconcile, List.map_map]
    rfl
  refine ⟨hordered, Eq.trans ?_ hnames⟩
  unfold resolve at hvalues
  split at hvalues
  · exact Resolution.map_name_of_resolveAll hvalues
  · obtain ⟨hsame, -⟩ := Prod.mk.inj (Except.ok.inj hvalues)
    rw [hsame]

/-- **What a pass reports** is about an extra value or about a reference in the content. -/
theorem exists_of_mem_diagnostics (h : align input documented declared = .ok r) {d : Diagnostic}
    (hd : d ∈ r.diagnostics) :
    (∃ v ∈ r.reconciliation.extra,
      Diagnostic.unknownValue input.config declared input.symbol v = .ok d) ∨
    ∃ v ∈ r.reconciliation.values, ∃ e ∈ v.content.entries, ∃ b ∈ e.2, ∃ reference,
      Resolution.unresolved b reference (contextPath input) (b.source.orElse v.source) =
        .ok d := by
  obtain ⟨unknown, unresolved, -, hunknown, hvalues, -, hds, -⟩ := exists_of_align h
  obtain ⟨-, hsorted⟩ := Json.sortedOn_eq_ok_iff.1 hds
  rw [← hsorted] at hd
  rcases List.mem_append.1 ((Json.sortOn_perm _ _).subset hd) with hd | hd
  · exact .inl (Outcome.exists_of_mem_mapM hunknown hd)
  · unfold resolve at hvalues
    split at hvalues
    · exact .inr (Resolution.exists_of_mem_resolveAll hvalues hd)
    · obtain ⟨-, rfl⟩ := Prod.mk.inj (Except.ok.inj hvalues)
      cases hd

end Pass
end ValueDocs.Loose
