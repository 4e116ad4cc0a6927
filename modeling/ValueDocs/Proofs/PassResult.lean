import Mathlib.Data.List.Dedup
import ValueDocs.Pass
import ValueDocs.Proofs.Directive.Blocks
import ValueDocs.Proofs.References
import ValueDocs.Proofs.Suppliers

/-!
# Proofs/PassResult — what a pass yields: the declared values, and the problems of their pages

A pass yields one value for each declared name in the order of declaration, whatever is documented.
It reports each documented value that no name has the key of, and each reference that leads nowhere
in the content that the values keep, and nothing else (`run_isAccountOf`).
-/

namespace ValueDocs

open Text

/-! ## What is to be reported -/

section Account

variable (caseSensitive : Bool) (names : List String) (documented : List DocumentedValue)

/-- The declared name that a documented value is about, the first with its key. -/
def ownerName? (v : DocumentedValue) : Option String :=
  names.find? fun n => nameKey caseSensitive n == nameKey caseSensitive v.name

/-- The documented values that are about no declared name. -/
def undeclared : List DocumentedValue :=
  documented.filter fun v => (ownerName? caseSensitive names v).isNone

/-- The documented values that a declared name keeps: for each variant the first about it. -/
def suppliers (name : String) : List DocumentedValue :=
  (documented.map (·.variant)).dedup.filterMap fun tag =>
    documented.find? fun v => ownerName? caseSensitive names v == some name && v.variant == tag

/-- The source of the first documented value about a declared name. -/
def sourceOf (name : String) : Option String :=
  (documented.find? fun v => ownerName? caseSensitive names v == some name).bind (·.source)

end Account

/-- A reference that leads nowhere, with the block it stands in and the source it is reported
under. -/
structure DeadLink where
  block : Block
  reference : Reference
  source : Option String
  deriving DecidableEq

namespace DeadLink

variable (resolver : Resolver) (contextPath : String)

/-- A source, or the one given where it says nothing. -/
def sourceOr (given : Option String) : Option String → Option String
  | some "" | none => given
  | some source => some source

/-- The dead links in the short description and the prose of a documented value.  A block without a
source has that of its value, and without that the one given. -/
def ofValue (given : Option String) (v : DocumentedValue) : List DeadLink :=
  let description : Block :=
    ⟨.description, v.shortDescription, v.descriptionRange, v.descriptionColumns, [], v.source⟩
  (description :: v.prose).flatMap fun b =>
    (Resolution.unresolvedIn resolver contextPath b).map fun r =>
      ⟨b, r, sourceOr given (b.source <|> v.source)⟩

/-- The dead links in the values that a declared name keeps. -/
def ofName (caseSensitive : Bool) (names : List String) (documented : List DocumentedValue)
    (name : String) : List DeadLink :=
  (suppliers caseSensitive names documented name).flatMap
    (ofValue resolver contextPath (sourceOf caseSensitive names documented name))

end DeadLink

/-- The dead links of a pass; without a resolver there are none. -/
def PassInput.deadLinks (input : PassInput) (contextPath : String) (names : List String)
    (documented : List DocumentedValue) : List DeadLink :=
  match input.resolver with
  | none => []
  | some resolver => names.flatMap
      (DeadLink.ofName resolver contextPath input.config.caseSensitive names documented)

/-- Where the characters of a block from `start` to before `stop` stand on the page, on the line of
the first.  A block without a range is on no page. -/
def Block.stretch? (b : Block) (start stop : Nat) : Option Range :=
  b.range.map fun page =>
    let head := b.text.toList.take start
    let line : Int := page.lower.line + row head
    let first : Int := (b.columns[row head]?).getD 1 + column head
    ⟨⟨line, first⟩, ⟨line, first + (stop - start : Nat)⟩⟩

namespace Diagnostic

/-- Whether a diagnostic reports that a documented value is not declared. -/
structure ReportsUnknown (symbol : String) (v : DocumentedValue) (d : Diagnostic) : Prop where
  kind : d.kind = .unknownValue
  severity : d.severity = .warning
  summary : d.summary = "'" ++ v.name ++ "' is not a known possible value for '" ++ symbol ++ "'."
  source : d.source = v.source
  range : d.range = v.range
  solutions : d.solutions.length = 1

/-- Whether a diagnostic reports a dead link. -/
structure ReportsDeadLink (contextPath : String) (link : DeadLink) (d : Diagnostic) : Prop where
  kind : d.kind = .unresolvedReference
  severity : d.severity = .warning
  summary : d.summary =
    "'" ++ link.reference.target ++ "' doesn't exist at '" ++ contextPath ++ "'"
  source : d.source = link.source
  range : d.range = link.block.stretch? link.reference.start link.reference.stop
  solutions : d.solutions = []

end Diagnostic

/-- Whether a result has the values that are declared, and reports what is to be reported. -/
structure PassResult.IsAccountOf (input : PassInput) (names : List String)
    (documented : List DocumentedValue) (r : PassResult) : Prop where
  nodup : names.Nodup
  /-- The values are the declared ones, numbered in order. -/
  values : r.values.map (fun v => (v.name, v.order)) = names.mapIdx fun k n => (n, .whole k)
  contextPath : r.contextPath = (input.contextPath.filter (· ≠ "")).getD ("/" ++ input.symbol)
  /-- One report for each undeclared value, one for each dead link, no other. -/
  diagnostics : ∃ unknown dead,
    List.Forall₂ (Diagnostic.ReportsUnknown input.symbol)
      (undeclared input.config.caseSensitive names documented) unknown ∧
    List.Forall₂ (Diagnostic.ReportsDeadLink r.contextPath)
      (input.deadLinks r.contextPath names documented) dead ∧
    r.diagnostics.Perm (unknown ++ dead)

/-! ## What is reported -/

namespace DeadLink

variable (resolver : Resolver) (contextPath : String)

/-- The diagnostic for a dead link. -/
def report (link : DeadLink) : Diagnostic :=
  Resolution.unresolved link.block link.reference contextPath link.source

/-- **A documented value has the dead links of its content.**  A description that is left out for
being empty has no references. -/
theorem map_report_ofValue (given : Option String) (v : DocumentedValue) :
    (ofValue resolver contextPath given v).map (report contextPath) =
      v.contentBlocks.flatMap fun b =>
        (Resolution.resolveBlock resolver contextPath (sourceOr given b.source) b).2 := by
  have hnone : Resolution.unresolvedIn resolver contextPath
      ⟨.description, "", v.descriptionRange, v.descriptionColumns, [], v.source⟩ = [] := by
    simp [Resolution.unresolvedIn, Reference.find, Reference.findFrom]
  have hself : (v.source <|> v.source) = v.source := by cases v.source <;> rfl
  simp only [Resolution.resolveBlock_snd, DocumentedValue.contentBlocks, List.flatMap_append,
    List.flatMap_map]
  rw [ofValue, List.flatMap_cons, List.map_append, List.map_flatMap]
  congr 1
  · rw [DocumentedValue.descriptionBlock?]
    by_cases hempty : v.shortDescription = ""
    · rw [if_pos hempty, hempty, hnone]
      rfl
    · rw [if_neg hempty, Option.toList_some, List.flatMap_singleton, List.map_map, hself]
      rfl
  · refine congrArg (List.flatMap · v.prose) (funext fun b => ?_)
    rw [List.map_map]
    rfl

/-- A reference is reported where its characters are. -/
theorem reportsDeadLink_report {link : DeadLink}
    (h : link.reference ∈ Reference.find link.block.text) :
    Diagnostic.ReportsDeadLink contextPath link (link.report contextPath) where
  kind := rfl
  severity := rfl
  summary := rfl
  source := rfl
  range := by
    obtain ⟨head, chars, tail, htext, hstart, hstop, hn⟩ := Reference.exists_of_mem_find h
    change Resolution.referenceRange link.block link.reference = _
    rw [Resolution.referenceRange, Block.stretch?, htext, hstart, hstop, List.take_left]
    cases hr : link.block.range with
    | none => simp [Block.positionOf?, hr]
    | some page =>
      have hlower := Block.positionOf?_of_append hr htext
      have hupper := Block.positionOf?_of_append hr
        (htext.trans (List.append_assoc head chars tail).symm)
      rw [row_append_of_notMem _ hn, column_append_of_notMem _ hn, List.length_append] at hupper
      rw [hlower, hupper, Nat.add_sub_cancel_left, Int.natCast_add, ← Int.add_assoc]
      rfl
  solutions := rfl

end DeadLink

namespace Reconciliation

variable (caseSensitive : Bool) (declared : List DeclaredValue) (documented : List DocumentedValue)

theorem isSome_ownerOf? (v : DocumentedValue) :
    (ownerOf? caseSensitive declared v.name).isSome =
      (ownerName? caseSensitive (declared.map (·.name)) v).isSome := by
  rw [ownerName?, ← map_name_ownerOf?, Option.isSome_map]

/-- The extra values are those that are about no declared name. -/
theorem extra_reconcile : (reconcile caseSensitive documented declared).extra =
    undeclared caseSensitive (declared.map (·.name)) documented := by
  refine congrArg (List.filter · documented) (funext fun v => ?_)
  dsimp only
  rw [isSome_ownerOf?, Option.not_isSome]

theorem documenting_eq_filter (name : String) :
    documenting caseSensitive declared documented name = documented.filter fun v =>
      ownerName? caseSensitive (declared.map (·.name)) v == some name := by
  refine congrArg (List.filter · documented) (funext fun v => ?_)
  rw [map_name_ownerOf?]
  rfl

/-- **A declared name keeps the first value of each variant.** -/
theorem firstPerVariant_documenting_perm (name : String) :
    (firstPerVariant (documenting caseSensitive declared documented name)).Perm
      (suppliers caseSensitive (declared.map (·.name)) documented name) := by
  have hsuppliers : suppliers caseSensitive (declared.map (·.name)) documented name =
      (documented.map (·.variant)).dedup.filterMap fun tag =>
        (documenting caseSensitive declared documented name).find? fun v => v.variant == tag := by
    refine congrArg (List.filterMap · _) (funext fun tag => ?_)
    rw [documenting_eq_filter, List.find?_filter]
    simp only [Bool.decide_and, Bool.decide_eq_true]
  rw [hsuppliers]
  exact firstPerVariant_perm (List.nodup_dedup _) fun v hv =>
    List.mem_dedup.2 (List.mem_map_of_mem (List.mem_of_mem_filter hv))

/-- The source of a reconciled value is that of the first value about it. -/
theorem source_reconcileValue (d : DeclaredValue) :
    (reconcileValue d (documenting caseSensitive declared documented d.name)).source =
      sourceOf caseSensitive (declared.map (·.name)) documented d.name := by
  rw [source_eq_head?, sourceOf, documenting_eq_filter, List.head?_filter]

/-- **Resolving a reconciled value reports the dead links** in the values it keeps. -/
theorem resolveValue_reconcileValue_perm (resolver : Resolver) (contextPath : String)
    (d : DeclaredValue) :
    (Resolution.resolveValue resolver contextPath
      (reconcileValue d (documenting caseSensitive declared documented d.name))).2.Perm
      ((DeadLink.ofName resolver contextPath caseSensitive (declared.map (·.name)) documented
        d.name).map (DeadLink.report contextPath)) := by
  rw [Resolution.resolveValue_snd, DeadLink.ofName, List.map_flatMap]
  refine ((List.mergeSort_perm _ _).flatMap_right _).trans ?_
  change (List.flatMap _ (List.map _ _)).Perm _
  rw [List.flatMap_map]
  have hsource := source_reconcileValue caseSensitive declared documented d
  simp only [DeadLink.map_report_ofValue, ← hsource]
  exact (firstPerVariant_documenting_perm caseSensitive declared documented d.name).flatMap_right _

end Reconciliation

namespace Pass

/-! ## The pass -/

section Align

variable (input : PassInput) (documented : List DocumentedValue) {declared : List DeclaredValue}

/-- **The values of a pass are the declared ones**, with their names and numbers. -/
theorem values_align (hsorted : declared.mergeSort (fun a b => a.order.le b.order) = declared) :
    (align input documented declared).values.map (fun v => (v.name, v.order)) =
      declared.map fun d => (d.name, d.order) := by
  have hvalues : (Reconciliation.reconcile input.config.caseSensitive documented
      declared).values.map (fun v => (v.name, v.order)) =
      declared.map fun d => (d.name, d.order) := by
    rw [Reconciliation.reconcile, hsorted, List.map_map]
    rfl
  rw [← hvalues]
  unfold align
  cases input.resolver with
  | none => rfl
  | some resolver =>
    change (Resolution.mapReported _ _).1.map _ = _
    rw [Resolution.mapReported_fst, List.map_map]
    refine List.map_congr_left fun v _ => ?_
    obtain ⟨hname, horder⟩ := Resolution.resolveValue_name_order resolver (contextPath input) v
    rw [Function.comp_apply, hname, horder]

/-- **The diagnostics of a pass** are those of the undeclared values and those of the dead links in
what the declared ones keep. -/
theorem diagnostics_align_perm
    (hsorted : declared.mergeSort (fun a b => a.order.le b.order) = declared) :
    (align input documented declared).diagnostics.Perm
      ((undeclared input.config.caseSensitive (declared.map (·.name)) documented).map
          (Diagnostic.unknownValue input.config declared input.symbol) ++
        (input.deadLinks (contextPath input) (declared.map (·.name)) documented).map
          (DeadLink.report (contextPath input))) := by
  unfold align
  refine (List.mergeSort_perm _ _).trans ?_
  rw [Reconciliation.extra_reconcile, PassInput.deadLinks]
  refine List.Perm.append_left _ ?_
  cases input.resolver with
  | none => exact .refl []
  | some resolver =>
    change (Resolution.mapReported _ _).2.Perm (List.map _ (List.flatMap _ _))
    rw [Resolution.mapReported_snd, Reconciliation.reconcile, hsorted, List.flatMap_map,
      List.map_flatMap, List.flatMap_map]
    exact List.Perm.flatMap_left _ fun d _ =>
      Reconciliation.resolveValue_reconcileValue_perm _ _ _ _ _ d

/-- The dead links of a pass are references of their blocks. -/
theorem mem_find_of_mem_deadLinks {path : String} {names : List String} {link : DeadLink}
    (h : link ∈ input.deadLinks path names documented) :
    link.reference ∈ Reference.find link.block.text := by
  rw [PassInput.deadLinks] at h
  split at h
  · simp at h
  · simp only [DeadLink.ofName, DeadLink.ofValue, List.mem_flatMap, List.mem_map] at h
    obtain ⟨_, -, _, -, b, -, r, hr, rfl⟩ := h
    exact (Resolution.mem_find_of_mem_unresolvedIn hr).1

end Align

/-- A documentation is read whenever the keywords are. -/
theorem exists_documentedValues {config : ValuesConfig} {vocabulary : Directive.Vocabulary}
    (hv : config.directives.vocabulary = .ok vocabulary) (source : Option String)
    (lineOffset : Int) (documentation : Documentation) :
    ∃ documented, documentedValues config source lineOffset documentation = .ok documented := by
  have hscan (tag : Tag) (text : String) : scanBody config source lineOffset tag text =
      .ok (Directive.documentedValues vocabulary ⟨source, tag⟩ lineOffset text.toList) := by
    rw [scanBody, hv]
    rfl
  cases documentation with
  | body text => exact ⟨_, hscan none text⟩
  | variants bodies =>
    have hall : bodies.mapM (fun b => scanBody config source lineOffset b.1 b.2) =
        .ok (bodies.map fun b => Directive.documentedValues vocabulary ⟨source, b.1⟩ lineOffset
          b.2.toList) := by
      simp only [hscan]
      exact List.mapM_pure
    refine ⟨(bodies.map fun b => Directive.documentedValues vocabulary ⟨source, b.1⟩ lineOffset
      b.2.toList).flatten, ?_⟩
    change (bodies.mapM (fun b => scanBody config source lineOffset b.1 b.2) >>= _) = _
    rw [hall]
    rfl
  | values values => exact ⟨values, rfl⟩

/-- The path references are resolved from is the one given, if it is not empty. -/
theorem contextPath_eq_getD (input : PassInput) :
    contextPath input = (input.contextPath.filter (· ≠ "")).getD ("/" ++ input.symbol) := by
  rw [contextPath]
  split <;> simp_all [Option.filter]

/-- **A pass yields the declared values and reports the problems of their pages.**  The values are
the first occurrences of the names in the metadata, in this order; the diagnostics are, in some
order, one for each documented value that is not declared and one for each dead link in what the
values keep. -/
theorem run_isAccountOf (input : PassInput) {tree : Json} {items : List Json}
    {vocabulary : Directive.Vocabulary} (hdeclared : input.declared = .metadata tree)
    (hitems : Metadata.items tree = .ok items)
    (hvocabulary : input.config.directives.vocabulary = .ok vocabulary) :
    ∃ documented r, documentedValues input.config input.source input.lineOffset
        input.documentation = .ok documented ∧
      run input = .ok r ∧
      r.IsAccountOf input (items.filterMap Metadata.nameOf?).eraseDups documented := by
  obtain ⟨documented, hdocumented⟩ := exists_documentedValues hvocabulary input.source
    input.lineOffset input.documentation
  set names := (items.filterMap Metadata.nameOf?).eraseDups with hnames
  have hvalues : input.declared.toValues = .ok (Metadata.numbered 0 names) := by
    rw [hdeclared, Declaration.toValues, Metadata.declaredValues, hitems, hnames,
      ← Metadata.distinct_eq_eraseDups]
    rfl
  have hname := Metadata.map_name_numbered 0 names
  have hsorted := Metadata.mergeSort_numbered 0 names
  refine ⟨documented, align input documented (Metadata.numbered 0 names), hdocumented, ?_, ?_⟩
  · rw [run, hdocumented, hvalues]
    rfl
  · have hdiagnostics := diagnostics_align_perm input documented hsorted
    rw [hname] at hdiagnostics
    refine ⟨?_, ?_, contextPath_eq_getD input, _, _, ?_, ?_, hdiagnostics⟩
    · rw [hnames, ← Metadata.distinct_eq_eraseDups]
      exact Metadata.nodup_distinct _
    · rw [values_align input documented hsorted, Metadata.numbered_eq_mapIdx]
      exact List.ext_getElem? fun k => by simp [Function.comp_def]
    · rw [List.forall₂_map_right_iff]
      exact List.forall₂_same.2 fun v _ => ⟨rfl, rfl, rfl, rfl, rfl, rfl⟩
    · rw [List.forall₂_map_right_iff]
      exact List.forall₂_same.2 fun link hlink =>
        DeadLink.reportsDeadLink_report _ (mem_find_of_mem_deadLinks _ _ hlink)

/-- A value that is documented twice, and between the two a value that is not declared. -/
def monthValues : List DocumentedValue :=
  [{ name := "May", shortDescription := "See ``Day``.", descriptionRange := some ⟨⟨3, 10⟩, ⟨3, 22⟩⟩,
     descriptionColumns := [10], source := some "month.md" },
    { name := "Mai", range := some ⟨⟨4, 3⟩, ⟨4, 8⟩⟩, source := some "month.md" },
    { name := "May", shortDescription := "or ``Day``" }]

/-- A pass over these values, in which no reference leads anywhere. -/
def monthInput : PassInput where
  symbol := "Month"
  documentation := .values monthValues
  declared := .metadata (.arr [.str "April", .obj [("name", .str "May")], .str "April"])
  resolver := some fun _ _ => none

/-- The later of the two values supplies nothing, so its reference is not reported. -/
theorem run_isAccountOf_monthInput :
    ∃ r, run monthInput = .ok r ∧ r.IsAccountOf monthInput ["April", "May"] monthValues ∧
      ∃ mai day, r.diagnostics.Perm [mai, day] ∧
        mai.summary = "'Mai' is not a known possible value for 'Month'." ∧
        mai.range = some ⟨⟨4, 3⟩, ⟨4, 8⟩⟩ ∧
        day.summary = "'Day' doesn't exist at '/Month'" ∧ day.source = some "month.md" ∧
        day.range = some ⟨⟨3, 14⟩, ⟨3, 21⟩⟩ := by
  obtain ⟨documented, r, hdocumented, hrun, haccount⟩ :=
    run_isAccountOf monthInput rfl rfl rfl
  obtain rfl : monthValues = documented := Except.ok.inj hdocumented
  refine ⟨r, hrun, haccount, ?_⟩
  obtain ⟨unknown, dead, hunknown, hdead, hdiagnostics⟩ := haccount.diagnostics
  rw [show r.contextPath = "/Month" from haccount.contextPath] at hdead
  have hundeclared : undeclared monthInput.config.caseSensitive ["April", "May"] monthValues =
      [monthValues[1]] := by decide +kernel
  have hlinks : monthInput.deadLinks "/Month" ["April", "May"] monthValues =
      [⟨⟨.description, "See ``Day``.", some ⟨⟨3, 10⟩, ⟨3, 22⟩⟩, [10], [], some "month.md"⟩,
        ⟨"Day", .symbol, 4, 11⟩, some "month.md"⟩] := by decide +kernel
  obtain ⟨mai, -, hmai, ⟨⟩, rfl⟩ := List.forall₂_cons_left_iff.1 (hundeclared ▸ hunknown)
  obtain ⟨day, -, hday, ⟨⟩, rfl⟩ := List.forall₂_cons_left_iff.1 (hlinks ▸ hdead)
  exact ⟨mai, day, hdiagnostics, hmai.summary, hmai.range, hday.summary, hday.source,
    hday.range.trans (by decide +kernel)⟩

end Pass
end ValueDocs
