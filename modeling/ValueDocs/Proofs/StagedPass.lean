import ValueDocs.CommandLine.Commands
import ValueDocs.Proofs.Files.Paths
import ValueDocs.Proofs.SecondStage
import ValueDocs.Proofs.Typed.Pass

/-!
# Proofs/StagedPass — the stages do what the pass in memory does

A check of one page runs two stages, the second of which reads what the first one has written; a
look at the page runs one pass in memory.  Where the titles of the symbols differ, the stages find
just the result of that pass, and its diagnostics (`StagedRun.field_symbols_eq_pagePass`).
-/

namespace ValueDocs

open Kernels

/-! ## Pages that are read -/

/-- The variant of a page is that of its values, and nothing else depends on it. -/
theorem Pass.scanBody_variant (config : ValuesConfig) (source : Option String) (lineOffset : Int)
    (variant : Tag) (text : String) :
    scanBody config source lineOffset variant text =
      (scanBody config source lineOffset none text).map (·.map fun v => { v with variant }) := by
  rw [scanBody, scanBody]
  cases config.directives.vocabulary with
  | error e => rfl
  | ok vocabulary =>
    refine congrArg Except.ok ?_
    dsimp only [Directive.documentedValues]
    rw [List.map_map]
    rfl

/-- A body that is documented for a variant, if one is asked for, has the values that the scan for
this variant finds. -/
theorem Pass.documentedValues_body {config : ValuesConfig} {source : Option String}
    {lineOffset : Int} {asked : Tag} (hasked : asked ≠ some "") {text : String}
    {values : List DocumentedValue}
    (hscan : scanBody config source lineOffset asked text = .ok values) :
    documentedValues config source lineOffset
      (match asked.filter (· ≠ "") with
        | some tag => .variants [(some tag, text)]
        | none => .body text) = .ok values := by
  cases asked with
  | none => exact hscan
  | some v =>
    have hv : v ≠ "" := fun hempty => hasked (congrArg some hempty)
    rw [Option.filter_some_pos (by simpa using hv)]
    refine Outcome.bind_eq_ok_iff.2
      ⟨[values], Outcome.mapM_eq_ok_iff.2 (.cons hscan .nil), ?_⟩
    rw [List.flatten_singleton]
    rfl

/-! ## One page, one pass -/

/-- Whether a variant is not given, or is a text that is not empty. -/
def CommandLine.IsUsable (variant : Option CommandLine.OptionValue) : Prop :=
  ∀ given ∈ variant, ∃ v, v ≠ "" ∧ given = .text v

namespace CommandLine

theorem IsUsable.exists_tag {variant : Option OptionValue} (h : IsUsable variant) :
    ∃ asked : Tag, asked ≠ some "" ∧ variant.bind OptionValue.text? = asked ∧
      (variant.map OptionValue.toJson).getD .null = .ofText? asked := by
  cases variant with
  | none => exact ⟨none, nofun, rfl, rfl⟩
  | some given =>
    obtain ⟨v, hne, rfl⟩ := h given rfl
    exact ⟨some v, fun hempty => hne (Option.some.inj hempty), rfl, rfl⟩

/-- The pass over a page that is shown is that over the values of the page, each for the variant. -/
theorem pagePass_eq_ok {request : ShowRequest} {settings : Settings} {catalog : Catalog}
    {s : Symbol} {page : Page} (hvariant : IsUsable request.variant) {config : ValuesConfig}
    (hconfig : settings.values.Agrees config) {values : List DocumentedValue}
    (hvalues : Pass.scanBody config (some (Path.ofString request.page).toString) page.offset none
      (String.ofList page.body) = .ok values)
    {declared : List DeclaredValue} (hdeclared : s.declaredValues = .ok declared) {variant : Json}
    (hgiven : variant = (request.variant.map OptionValue.toJson).getD .null)
    {r : Loose.PassResult}
    (h : Loose.Pass.run (Reconcile.passOver config variant catalog
      (declared.map DeclaredValue.toLoose) ⟨s, values.map fun v => { v.toLoose with variant }⟩) =
        .ok r) :
    pagePass request settings catalog s page = .ok r := by
  subst hgiven
  obtain ⟨asked, hasked, htag, hjson⟩ := hvariant.exists_tag
  rw [Pass.scanBody_congr hconfig] at hvalues
  have hscan : Pass.scanBody settings.values (some (Path.ofString request.page).toString)
      page.offset asked (String.ofList page.body) =
        .ok (values.map fun v => { v with variant := asked }) := by
    rw [Pass.scanBody_variant, hvalues]
    rfl
  have hlifted : values.map (fun v : DocumentedValue => { v.toLoose with
      variant := (request.variant.map OptionValue.toJson).getD .null }) =
      (values.map fun v => { v with variant := asked }).map DocumentedValue.toLoose := by
    rw [hjson, List.map_map]
    rfl
  -- the settings agree with the configuration of the stages, so the pass is the same under both
  let pass (config : ValuesConfig) : Loose.PassInput :=
    Reconcile.passOver config ((request.variant.map OptionValue.toJson).getD .null) catalog
      (declared.map DeclaredValue.toLoose) ⟨s, []⟩
  have hcongr : pass config = { pass settings.values with config } := rfl
  have halign := (Loose.Pass.align_congr hconfig hcongr _ _).symm.trans h
  rw [hlifted] at halign
  refine Outcome.bind_eq_ok_iff.2 ⟨declared, hdeclared, Outcome.bind_eq_ok_iff.2 ⟨_,
    Outcome.bind_eq_ok_iff.2 ⟨_, ?_, rfl⟩, Outcome.bind_eq_ok_iff.2 ⟨_, rfl, halign⟩⟩⟩
  rw [htag]
  exact Pass.documentedValues_body hasked hscan

end CommandLine

/-- What the stages are told in a check of one page. -/
theorem CommandLine.setting_of_stageConfig {check : CheckRequest} {settings : Settings}
    {page catalog : Path} {config : Json.Fields}
    (h : stageConfig check settings [page] catalog = .ok config) :
    ∃ variant, variant = (check.variant.map OptionValue.toJson).getD .null ∧
      setting config "pages" =
        .arr [.obj [("path", .str page.toString), ("variant", variant)]] ∧
      setting config "catalog" = .str catalog.toString ∧ setting config "variant" = variant ∧
      settings.values.toJson = .ok (setting config "values") := by
  obtain ⟨tree, htree, hfields⟩ := Outcome.bind_eq_ok_iff.1 h
  obtain rfl := Except.ok.inj hfields
  refine ⟨_, rfl, ?_⟩
  simp [setting, List.lookup_cons, htree]

namespace StagedRun

open CommandLine

/-- **The stages find just what the pass in memory yields.**  Let both stages succeed in turn under
the configuration of a check of one page, whose heading names a title, with a catalog whose symbols
have different titles.  The title leads to a symbol; the pass over the page that is shown, for this
symbol and under the same settings, yields a result; and the stages find this one result, and its
diagnostics. -/
theorem field_symbols_eq_pagePass (S : StagedRun) (hlegible : S.IsLegible) {check : CheckRequest}
    {request : ShowRequest} {settings : Settings} {catalogFile : String}
    (hconfig : stageConfig check settings [.ofString request.page] (.ofString catalogFile) =
      .ok S.config)
    (hsame : check.variant = request.variant) (hvariant : IsUsable request.variant)
    {text : List Char} (htext : S.w₀.files.readText (.ofString request.page) = .ok text)
    {title : String} (htitle : (Page.ofText text).title = some title) {catalog : Catalog}
    (hcatalog : Catalog.load S.w₁.files (.ofString catalogFile) = .ok catalog)
    (htitles : catalog.symbols.Pairwise fun s t => s.title.equal t.title = false) :
    ∃ symbol r, catalog.find (.str title) = .ok (some symbol) ∧
      pagePass request settings catalog symbol (Page.ofText text) = .ok r ∧
      S.reconciled.data.field "symbols" = .ok (.arr [r.toJson]) ∧
      S.reconciled.data.field "diagnostics" =
        .ok (.arr (r.diagnostics.map Loose.Diagnostic.toJson)) := by
  obtain ⟨variant, hgiven, hpages, hcatalogPath, hstageVariant, htree⟩ :=
    setting_of_stageConfig hconfig
  -- what the stages read
  obtain ⟨config, pages, catalog', declared, hreads⟩ := S.exists_reads
  obtain ⟨path, hpath, hload⟩ := hreads.catalog.load
  obtain rfl := Json.str.inj (hcatalogPath.symm.trans hpath)
  rw [Path.ofString_toString fun _ => Path.isPart_of_mem_ofString] at hload
  obtain rfl : catalog = catalog' := Except.ok.inj (hcatalog.symm.trans hload)
  rw [← Path.ofString_toString fun _ => Path.isPart_of_mem_ofString] at htext
  obtain ⟨p, rfl, hsymbol, hpvariant, hvalues⟩ := hreads.pages.exists_page hpages htext htitle
  have hagrees : settings.values.Agrees config := by
    obtain ⟨config', hread, hagrees⟩ := ValuesConfig.exists_ofJson_toJson htree
    have hconfig' := hreads.pages.values
    rw [hread] at hconfig'
    exact Except.ok.inj hconfig' ▸ hagrees
  -- what the second stage does with it
  obtain ⟨found, results, ds, log, found', hfound, hpasses, hfindings, hdata⟩ :=
    S.exists_passes hlegible hreads
  have hlength := (Outcome.mapM_eq_ok_iff.1 hreads.catalog.extract).length_eq.symm
  obtain ⟨hfind, hruns, hsort⟩ := Reconcile.mapM_of_runPasses hlength hfound hpasses
  obtain ⟨symbol, hfound⟩ := hfind p (List.mem_singleton_self p)
  obtain ⟨_, -, hmem, -⟩ := Catalog.exists_of_find hfound
  have hown : ∀ other ∈ catalog.symbols, other.title.equal symbol.title = true →
      other = symbol := by
    intro other hother htitle
    have hsymm : Std.Symm fun s t : Symbol => s.title.equal t.title = false :=
      ⟨fun s t h => by rw [Json.equal_comm, h]⟩
    by_contra hne
    simp [htitles.forall hother hmem hne] at htitle
  obtain ⟨values, hdeclared, hlast⟩ :=
    Reconcile.lastWith_eq hreads.catalog.extract hmem hown
  rw [Reconcile.addPages_singleton hfound, hstageVariant, ScannedPage.entries, hpvariant] at hruns
  obtain ⟨r, rest, hr, hrest, rfl⟩ :=
    List.forall₂_cons_left_iff.1 (Outcome.mapM_eq_ok_iff.1 hruns)
  obtain rfl := List.forall₂_nil_left_iff.1 hrest
  rw [hlast] at hr
  have hpass := pagePass_eq_ok hvariant hagrees hvalues hdeclared (hsame ▸ hgiven) hr
  -- the diagnostics of the one pass are sorted already
  have hdrain : ds = r.diagnostics := by
    rw [List.flatMap_singleton] at hsort
    obtain ⟨asked, -, -, hjson⟩ := hvariant.exists_tag
    rw [hgiven, hsame, hjson] at hr
    have hentries : p.values.map (fun v => { v.toLoose with variant := .ofText? asked }) =
        (p.values.map fun v => { v with variant := asked }).map DocumentedValue.toLoose := by
      rw [List.map_map]
      rfl
    rw [hentries] at hr
    exact Except.ok.inj (hsort.symm.trans (Pass.sort_diagnostics hr))
  refine ⟨symbol, r, hsymbol ▸ hfound, hpass, hdata ▸ Reconcile.symbols_of_findings hfindings, ?_⟩
  rw [hdata, ← hdrain]
  exact Reconcile.diagnostics_of_findings hfindings

/-- A check of the page of the small run. -/
def kindCheck : CheckRequest := { pages := ["page.md"], catalog := .text "catalog.json" }

/-- A look at the page. -/
def kindShow : ShowRequest := { page := "page.md", catalog := .text "catalog.json" }

/-- The stages and the pass in memory find the same value that is not declared. -/
theorem field_symbols_eq_pagePass_kindPage :
    ∃ (S : StagedRun) (r : Loose.PassResult), S.w₀ = filesOf kindPage kindCatalog ∧ S.IsLegible ∧
      stageConfig kindCheck {} [.ofString kindShow.page] (.ofString "catalog.json") = .ok S.config ∧
      kindCheck.variant = kindShow.variant ∧ IsUsable kindShow.variant ∧
      S.w₀.files.readText (.ofString kindShow.page) = .ok kindPage.toList ∧
      (Page.ofText kindPage.toList).title = some "Kind" ∧
      Catalog.load S.w₁.files (.ofString "catalog.json") = .ok kindSymbols ∧
      (kindSymbols.symbols.Pairwise fun s t => s.title.equal t.title = false) ∧
      pagePass kindShow {} kindSymbols kindSymbol (Page.ofText kindPage.toList) = .ok r ∧
      S.reconciled.data.field "symbols" = .ok (.arr [r.toJson]) ∧
      S.reconciled.data.field "diagnostics" = .ok (.arr (r.diagnostics.map Loose.Diagnostic.toJson)) ∧
      r.diagnostics.length = 1 := by
  obtain ⟨S, hS, hw₀, hlegible⟩ := exists_kindRun
  have hconfig : stageConfig kindCheck {} [.ofString kindShow.page] (.ofString "catalog.json") =
      .ok S.config := by
    rw [hS]
    rfl
  have hsame : kindCheck.variant = kindShow.variant := rfl
  have hvariant : IsUsable kindShow.variant := nofun
  have htext : S.w₀.files.readText (.ofString kindShow.page) = .ok kindPage.toList := by
    rw [hw₀]
    exact Outcome.eq_ok_of_toOption (by decide +kernel)
  have htitle : (Page.ofText kindPage.toList).title = some "Kind" := by decide +kernel
  have hlast : (Path.ofString "catalog.json").parts.getLast? = some "catalog.json" := by
    decide +kernel
  have hcatalog : Catalog.load S.w₁.files (.ofString "catalog.json") = .ok kindSymbols :=
    S.load_eq hlast (by decide) (hw₀ ▸ Outcome.eq_ok_of_toOption (by decide +kernel))
  have htitles : kindSymbols.symbols.Pairwise fun s t => s.title.equal t.title = false := by
    decide +kernel
  obtain ⟨symbol, r, hsymbol, hpass, hresults, hdiagnostics⟩ :=
    S.field_symbols_eq_pagePass hlegible hconfig hsame hvariant htext htitle hcatalog htitles
  have hfind : kindSymbols.find (.str "Kind") = .ok (some kindSymbol) :=
    Outcome.eq_ok_of_toOption (by decide +kernel)
  obtain rfl := Option.some.inj (Except.ok.inj (hfind.symm.trans hsymbol))
  have hlength : ((pagePass kindShow {} kindSymbols kindSymbol
      (Page.ofText kindPage.toList)).toOption.map (·.diagnostics.length)) = some 1 := by
    decide +kernel
  rw [hpass] at hlength
  exact ⟨S, r, hw₀, hlegible, hconfig, hsame, hvariant, htext, htitle, hcatalog, htitles, hpass,
    hresults, hdiagnostics, Option.some.inj hlength⟩

end StagedRun
end ValueDocs
