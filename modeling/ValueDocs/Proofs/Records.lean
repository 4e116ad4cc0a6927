import ValueDocs.Kernels.Declarations
import ValueDocs.Kernels.Directives
import ValueDocs.Kernels.Reconcile
import ValueDocs.Proofs.Outcome
import ValueDocs.Proofs.Work

/-!
# Proofs/Records — records survive the trip through data trees

Each record is read back from its data tree as it was.
-/

namespace ValueDocs

/-! ## Lists and optional texts -/

namespace Json

theorem mapElements_arr {α : Type} (f : Json → Outcome α) (js : List Json) :
    (arr js).mapElements f = js.mapM f := rfl

/-- Items that are read back one by one are read back together. -/
theorem mapElements_arr_map {α : Type} {encode : α → Json} {decode : Json → Outcome α}
    (h : ∀ x, decode (encode x) = .ok x) (xs : List α) :
    (arr (xs.map encode)).mapElements decode = .ok xs := by
  rw [mapElements_arr, Outcome.mapM_eq_ok_iff, List.forall₂_map_left_iff]
  exact List.forall₂_same.2 fun x _ => h x

end Json

/-! ## Blocks -/

@[simp] theorem BlockKind.ofJson_name (k : BlockKind) : ofJson (.str k.name) = .ok k := by
  cases k <;> rfl

@[simp] theorem SegmentKind.ofJson_name (k : SegmentKind) : ofJson (.str k.name) = .ok k := by
  cases k <;> rfl

/-! ## Fields of objects -/

namespace Json

variable {name other : String} {j default : Json} {fs : Fields}

@[simp] theorem field_cons_self : field name (.obj ((name, j) :: fs)) = .ok j := by
  simp [field, List.lookup_cons_self]

theorem field_cons_of_ne (h : name ≠ other) :
    field name (.obj ((other, j) :: fs)) = field name (.obj fs) := by
  rw [field, field, List.lookup_cons, beq_eq_false_iff_ne.2 h]

@[simp] theorem get_nil : get (.obj []) name default = .ok default := rfl

@[simp] theorem get_cons_self : get (.obj ((name, j) :: fs)) name default = .ok j := by
  simp [get, get?, List.lookup_cons_self, bind, Except.bind, pure, Except.pure]

theorem get_cons_of_ne (h : name ≠ other) :
    get (.obj ((other, j) :: fs)) name default = get (.obj fs) name default := by
  rw [get, get, get?, get?, List.lookup_cons, beq_eq_false_iff_ne.2 h]

end Json

/-! ## Loose records

A record with arbitrary parts is read back as well, and one that holds texts and whole numbers is
written like the record of these. -/

namespace Loose

variable {name : String} {j : Json}

@[simp] theorem Place.ofJson_toJson (p : Place) : ofJson p.toJson = .ok p := by
  simp [toJson, ofJson, Json.field_cons_of_ne, bind, Except.bind, pure, Except.pure]

@[simp] theorem Span.ofJson?_toJson? (s : Option Span) : ofJson? (toJson? s) = .ok s := by
  cases s with
  | none => rfl
  | some s =>
    simp [toJson?, toJson, ofJson?, Json.truthy, Json.field_cons_of_ne, bind, Except.bind, pure,
      Except.pure]

theorem Span.get?_eq {s : Option Span} (h : j.get name .null = .ok (toJson? s)) :
    get? j name = .ok s := by
  rw [get?, h]
  exact ofJson?_toJson? s

/-- A part that may be left out is read back, if it comes last. -/
@[simp] theorem get_given (name : String) (part : Json) :
    (Json.obj (given name part)).get name .null = .ok part := by
  rw [given]
  split
  · next h => rw [h, Json.get_nil]
  · exact Json.get_cons_self

@[simp] theorem Segment.ofJson_toJson (s : Segment) : ofJson s.toJson = .ok s := by
  obtain ⟨kind, text, destination⟩ := s
  simp [toJson, ofJson, Json.field_cons_of_ne, Json.get_cons_of_ne, bind, Except.bind, pure,
    Except.pure]

theorem itemsOf_eq {α : Type} {encode : α → Json} {decode : Json → Outcome α}
    (hdecode : ∀ x, decode (encode x) = .ok x) {xs : List α}
    (h : j.get name (.arr []) = .ok (.arr (xs.map encode))) : itemsOf decode j name = .ok xs := by
  rw [itemsOf, h]
  exact Json.mapElements_arr_map hdecode xs

theorem itemsOf_pure_eq {xs : List Json} (h : j.get name (.arr []) = .ok (.arr xs)) :
    itemsOf pure j name = .ok xs :=
  itemsOf_eq (fun j => (rfl : pure (id j) = Except.ok j)) (by rwa [List.map_id])

@[simp] theorem Block.ofJson_toJson (b : Block) : ofJson b.toJson = .ok b := by
  obtain ⟨kind, text, range, columns, inlines, source⟩ := b
  have hinlines : itemsOf Segment.ofJson (toJson ⟨kind, text, range, columns, inlines, source⟩)
      "inlines" = .ok inlines := by
    refine itemsOf_eq Segment.ofJson_toJson ?_
    cases inlines with
    | nil => by_cases h : source = .null <;> simp [toJson, given, h, Json.get_cons_of_ne]
    | cons s inlines => simp [toJson, Json.get_cons_of_ne]
  have hsource : (toJson ⟨kind, text, range, columns, inlines, source⟩).get "source" .null =
      .ok source := by
    cases inlines <;> simp [toJson, Json.get_cons_of_ne]
  have hrange : Span.get? (toJson ⟨kind, text, range, columns, inlines, source⟩) "range" =
      .ok range := Span.get?_eq (by simp [toJson, Json.get_cons_of_ne])
  have hcolumns : itemsOf pure (toJson ⟨kind, text, range, columns, inlines, source⟩) "columns" =
      .ok columns := itemsOf_pure_eq (by simp [toJson, Json.get_cons_of_ne])
  rw [ofJson, hinlines, hsource, hrange, hcolumns]
  simp [toJson, Json.field_cons_of_ne, bind, Except.bind, pure, Except.pure]

@[simp] theorem DocumentedValue.ofJson_toJson (v : DocumentedValue) :
    ofJson v.toJson = .ok v := by
  have hprose : itemsOf Block.ofJson v.toJson "prose" = .ok v.prose :=
    itemsOf_eq Block.ofJson_toJson (by simp [toJson, Json.get_cons_of_ne])
  have hrange : Span.get? v.toJson "range" = .ok v.range :=
    Span.get?_eq (by simp [toJson, Json.get_cons_of_ne])
  have hnameRange : Span.get? v.toJson "name_range" = .ok v.nameRange :=
    Span.get?_eq (by simp [toJson, Json.get_cons_of_ne])
  have hdescriptionRange : Span.get? v.toJson "description_range" = .ok v.descriptionRange :=
    Span.get?_eq (by simp [toJson, Json.get_cons_of_ne])
  have hcolumns : itemsOf pure v.toJson "description_columns" = .ok v.descriptionColumns :=
    itemsOf_pure_eq (by simp [toJson, Json.get_cons_of_ne])
  rw [ofJson, hprose, hrange, hnameRange, hdescriptionRange, hcolumns]
  simp [toJson, Json.get_cons_of_ne, bind, Except.bind, pure, Except.pure]

@[simp] theorem DeclaredValue.ofJson_toJson (v : DeclaredValue) : ofJson v.toJson = .ok v := by
  simp [toJson, ofJson, Json.field_cons_of_ne, bind, Except.bind, pure, Except.pure]

end Loose

section ToLoose

@[simp] theorem Position.toJson_toLoose (p : Position) : p.toLoose.toJson = p.toJson := rfl

@[simp] theorem Range.toJson_toLoose (r : Range) : r.toLoose.toJson = r.toJson := rfl

@[simp] theorem Range.toJson?_toLoose (r : Option Range) :
    Loose.Span.toJson? (r.map Range.toLoose) = toJson? r := by
  cases r <;> rfl

theorem Json.ofInts_eq (ns : List Int) : ofInts ns = .arr (ns.map .int) := rfl

@[simp] theorem Segment.toJson_toLoose (s : Segment) : s.toLoose.toJson = s.toJson := by
  obtain ⟨kind, text, destination⟩ := s
  cases destination <;> rfl

@[simp] theorem Block.toJson_toLoose (b : Block) : b.toLoose.toJson = b.toJson := by
  obtain ⟨kind, text, range, columns, inlines, source⟩ := b
  cases inlines <;> cases source <;>
    simp [toLoose, toJson, Loose.Block.toJson, Loose.given, Json.ofInts_eq, Json.ofText?]

@[simp] theorem DocumentedValue.toJson_toLoose (v : DocumentedValue) :
    v.toLoose.toJson = v.toJson := by
  simp [toLoose, toJson, Loose.DocumentedValue.toJson, Json.ofInts_eq]

@[simp] theorem DeclaredValue.toJson_toLoose (v : DeclaredValue) :
    v.toLoose.toJson = v.toJson := rfl

@[simp] theorem Solution.toJson_toLoose (s : Solution) : s.toLoose.toJson = s.toJson := by
  obtain ⟨summary, replacement, range⟩ := s
  cases replacement <;> simp [toLoose, toJson, Loose.Solution.toJson, Json.ofText?]

@[simp] theorem Diagnostic.toJson_toLoose (d : Diagnostic) : d.toLoose.toJson = d.toJson := by
  simp [toLoose, toJson, Loose.Diagnostic.toJson]

end ToLoose

/-! ## Configurations -/

/-- Whether two configurations lead to the same passes: they may differ in how keywords are given,
and in the number of workers. -/
structure ValuesConfig.Agrees (c c' : ValuesConfig) : Prop where
  suggestion : c'.suggestion = c.suggestion
  caseSensitive : c'.caseSensitive = c.caseSensitive
  vocabulary : c'.directives.vocabulary = c.directives.vocabulary

/-- A distance that is not negative is read as it is. -/
theorem SuggestionPolicy.readDistance_natCast (n : Nat) : readDistance (n : Int) = pure n := by
  rw [readDistance, if_neg (by omega)]
  rfl

/-- A policy is read back from its name. -/
theorem TieBreak.read_name (t : TieBreak) : read (.str t.name) = pure t := by
  cases t <;> rfl

open Attempt in
/-- **A configuration that is written is read back** with the items of its keywords, and nothing has
to be mended. -/
theorem ValuesConfig.run_ofJson_toJson {c : ValuesConfig} {j : Json} (h : c.toJson = .ok j) :
    ∃ block inline limit, c.directives.blockKeywords.elements = .ok block ∧
      c.directives.inlineKeywords.elements = .ok inline ∧
      WorkerLimit.ofJson c.maxWorkers.toJson = .ok limit ∧
      (ofJson j).run = (.ok { c with directives := ⟨.arr block, .arr inline⟩, maxWorkers := limit },
        []) := by
  obtain ⟨⟨distance, tieBreak⟩, caseSensitive, ⟨block, inline⟩, workers⟩ := c
  obtain ⟨blockItems, hblock, h⟩ := Outcome.bind_eq_ok_iff.1 h
  obtain ⟨inlineItems, hinline, h⟩ := Outcome.bind_eq_ok_iff.1 h
  obtain rfl := Except.ok.inj h
  obtain ⟨limit, hlimit⟩ : ∃ limit, WorkerLimit.ofJson workers.toJson = .ok limit := by
    cases workers <;> exact ⟨_, rfl⟩
  refine ⟨blockItems, inlineItems, limit, hblock, hinline, hlimit, ?_⟩
  -- each setting is found under its name
  rw [ofJson]
  simp only [Json.truthy, List.isEmpty_cons, Bool.not_false, if_true]
  rw [run_ofOutcome_bind Json.get_cons_self,
    run_ofOutcome_bind ((Json.get_cons_of_ne (by decide)).trans Json.get_cons_self),
    run_ofOutcome_bind ((Json.get_cons_of_ne (by decide)).trans
      ((Json.get_cons_of_ne (by decide)).trans Json.get_cons_self)),
    run_ofOutcome_bind (by rw [Json.get_cons_self]; rfl),
    run_ofOutcome_bind ((Json.get_cons_of_ne (by decide)).trans Json.get_cons_self),
    run_bind_of_eq_ok (congrArg run (SuggestionPolicy.readDistance_natCast distance)),
    run_bind_of_eq_ok (congrArg run (TieBreak.read_name tieBreak)),
    run_ofOutcome]
  simp [Json.get_cons_of_ne, hlimit, bind, Except.bind, pure, Except.pure]

/-- A configuration that is written is read back as one that leads to the same passes. -/
theorem ValuesConfig.exists_ofJson_toJson {c : ValuesConfig} {j : Json} (h : c.toJson = .ok j) :
    ∃ c', (ofJson j).run = (.ok c', []) ∧ c.Agrees c' := by
  obtain ⟨block, inline, limit, hblock, hinline, -, hrun⟩ := run_ofJson_toJson h
  refine ⟨_, hrun, rfl, rfl, ?_⟩
  -- the items of a setting are the keywords of the setting
  have htexts {setting : Json} {items : List Json} (h : setting.elements = .ok items) :
      DirectiveConfig.texts (.arr items) = DirectiveConfig.texts setting := by
    rw [DirectiveConfig.texts, DirectiveConfig.texts, h]
    rfl
  simp only [DirectiveConfig.vocabulary, htexts hblock, htexts hinline]

theorem Pass.scanBody_congr {c c' : ValuesConfig} (h : c.Agrees c') (source : Option String)
    (lineOffset : Int) (variant : Tag) (text : String) :
    scanBody c' source lineOffset variant text = scanBody c source lineOffset variant text := by
  rw [scanBody, scanBody, h.vocabulary]

theorem Loose.Pass.align_congr {input input' : PassInput} (h : input.config.Agrees input'.config)
    (hinput : input' = { input with config := input'.config })
    (documented : List DocumentedValue) (declared : List DeclaredValue) :
    align input' documented declared = align input documented declared := by
  have hunknown : Diagnostic.unknownValue input'.config declared input.symbol =
      Diagnostic.unknownValue input.config declared input.symbol := by
    funext v
    simp only [Diagnostic.unknownValue, Suggestion.solution, Suggestion.proposal?,
      Suggestion.bestMatch?, h.suggestion, h.caseSensitive]
  rw [hinput, align, align]
  dsimp only
  rw [hunknown, h.caseSensitive]
  rfl

/-! ## Outputs of the first stage -/

namespace Kernels

open ScannedPage Reconcile

/-- A value of a page is written with the variant of the page. -/
theorem valueJson_eq (variant : Json) (v : DocumentedValue) :
    valueJson variant v = { v.toLoose with variant }.toJson := by
  rw [valueJson, ← DocumentedValue.toJson_toLoose]
  simp [Loose.DocumentedValue.toJson, Json.setField]

/-- **A value of a page is read back** with the variant of the page, whatever that is. -/
theorem ofJson_valueJson (variant : Json) (v : DocumentedValue) :
    Loose.DocumentedValue.ofJson (valueJson variant v) = .ok { v.toLoose with variant } := by
  rw [valueJson_eq, Loose.DocumentedValue.ofJson_toJson]

/-- A declared value is read back as a record holds it. -/
theorem ofJson_declaredJson (v : DeclaredValue) :
    Loose.DeclaredValue.ofJson v.toJson = .ok v.toLoose := by
  rw [← DeclaredValue.toJson_toLoose, Loose.DeclaredValue.ofJson_toJson]

/-- A symbol is read back from the first stage. -/
theorem symbolOf_symbolJson (s : Symbol) (declared : List DeclaredValue) :
    symbolOf (Declarations.symbolJson s declared) = .ok s := by
  obtain ⟨title, path, metadata⟩ := s
  simp [symbolOf, Declarations.symbolJson, Symbol.toJson, Json.field_cons_of_ne,
    Json.get_cons_of_ne, bind, Except.bind, pure, Except.pure]

end Kernels
end ValueDocs
