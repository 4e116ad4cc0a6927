import ValueDocs.Proofs.SecondStage
import ValueDocs.Proofs.Suppliers
import ValueDocs.Proofs.Typed.Values

/-!
# Proofs/PagesOfSymbol — which pages a symbol is checked against

The second stage keeps jobs and declared values by title.  Where no other symbol has a title that is
equal to that of a symbol, its pass is over exactly the pages that lead to it, its values are the ones
it declares, and no other pass has its path (`StagedRun.exists_result_of_page`).
-/

namespace ValueDocs

open Kernels

namespace Kernels

/-- Whether a page leads to a symbol. -/
def ScannedPage.isOf (catalog : Catalog) (s : Symbol) (p : ScannedPage) : Bool :=
  catalog.leadsTo? p.symbol == some s

namespace Reconcile

theorem contextPath_passOver {config : ValuesConfig} {variant : Json} {catalog : Catalog}
    {declared : List Loose.DeclaredValue} {job : Job} (h : job.symbol.pathText ≠ "") :
    Loose.Pass.contextPath (passOver config variant catalog declared job) = job.symbol.pathText := by
  rw [Loose.Pass.contextPath]
  split
  · next hempty => exact absurd (Option.some.inj hempty) h
  · next hnone => cases hnone
  · next hsome => exact (Option.some.inj hsome).symm

/-- Symbols that pages lead to have texts for their paths, so two of one path that is shown are at one
path. -/
theorem path_eq_of_leadsTo? {catalog : Catalog} {reference reference' : Json} {s t : Symbol}
    (hs : catalog.leadsTo? reference = some s) (ht : catalog.leadsTo? reference' = some t)
    (h : s.pathText = t.pathText) : s.path = t.path := by
  obtain ⟨_, -, -, hs⟩ := Catalog.exists_of_find (Catalog.leadsTo?_eq_some_iff.1 hs)
  obtain ⟨_, -, -, ht⟩ := Catalog.exists_of_find (Catalog.leadsTo?_eq_some_iff.1 ht)
  have htext {u : Symbol} (hu : u.hasPath = true) : u.path = .str u.pathText := by
    rw [Symbol.pathText]
    cases hpath : u.path with
    | str p => rfl
    | _ => simp [Symbol.hasPath, hpath, Json.string?] at hu
  rw [htext (s.hasPath_of_isNamedBy hs), htext (t.hasPath_of_isNamedBy ht), h]

section OwnTitle

variable {config : ValuesConfig} {variant : Json} {catalog : Catalog}
  {table : List (Json × List Loose.DeclaredValue)} {pages : List ScannedPage} {s : Symbol}

/-- The pages of a title that no other symbol has are those that lead to its symbol. -/
theorem filter_filterMap_pageOf?
    (hown : ∀ other ∈ catalog.symbols, other.title.equal s.title = true → other = s) :
    (pages.filterMap (pageOf? catalog)).filter (·.1.title.equal s.title) =
      (pages.filter (·.isOf catalog s)).map fun p => (s, p.entries) := by
  rw [List.filter_filterMap, ← List.filterMap_eq_map, List.filterMap_filter]
  refine List.filterMap_congr fun p _ => ?_
  rw [pageOf?, ScannedPage.isOf]
  cases hp : catalog.leadsTo? p.symbol with
  | none => rfl
  | some other =>
    obtain ⟨_, -, hother, -⟩ := Catalog.exists_of_find (Catalog.leadsTo?_eq_some_iff.1 hp)
    by_cases hsame : other = s
    · subst hsame
      simp
    · have htitle : other.title.equal s.title = false :=
        Bool.eq_false_iff.2 fun h => hsame (hown other hother h)
      simp [hsame, htitle]

/-- **The job of a symbol with a title of its own is over the pages that lead to it**, and the pass of
no other job has its path. -/
theorem filter_contextPath_addPages (hpaths : (catalog.symbols.map (·.path)).Nodup)
    (hshown : ∀ other ∈ catalog.symbols, other.pathText ≠ "")
    (hown : ∀ other ∈ catalog.symbols, other.title.equal s.title = true → other = s)
    {p : ScannedPage} (hp : p ∈ pages) (hps : catalog.leadsTo? p.symbol = some s) :
    (addPages [] (pages.filterMap (pageOf? catalog))).filter
        (fun job => Loose.Pass.contextPath (passOver config variant catalog
          (lastWith job.symbol.title table) job) = s.pathText) =
      [⟨s, (pages.filter (·.isOf catalog s)).flatMap ScannedPage.entries⟩] := by
  have htitles : (addPages [] (pages.filterMap (pageOf? catalog))).filter
      (fun job => Loose.Pass.contextPath (passOver config variant catalog
        (lastWith job.symbol.title table) job) = s.pathText) =
        (addPages [] (pages.filterMap (pageOf? catalog))).filter
          (·.symbol.title.equal s.title) := by
    refine List.filter_congr fun job hjob => ?_
    obtain ⟨q, hq, hsymbol⟩ := exists_of_mem_addPages hjob
    obtain ⟨q', _, hpage⟩ := List.mem_filterMap.1 hq
    obtain ⟨other, hother, rfl⟩ := Option.map_eq_some_iff.1 hpage
    obtain rfl : other = job.symbol := hsymbol
    obtain ⟨_, -, hmem, -⟩ := Catalog.exists_of_find (Catalog.leadsTo?_eq_some_iff.1 hother)
    obtain ⟨_, -, hs, -⟩ := Catalog.exists_of_find (Catalog.leadsTo?_eq_some_iff.1 hps)
    rw [Bool.eq_iff_iff, decide_eq_true_iff, contextPath_passOver (hshown _ hmem)]
    constructor
    · intro hpath
      rw [List.inj_on_of_nodup_map hpaths hmem hs (path_eq_of_leadsTo? hother hps hpath)]
      exact Json.equal_refl _
    · intro htitle
      rw [hown _ hmem htitle]
  have hmem : p ∈ pages.filter (·.isOf catalog s) :=
    List.mem_filter.2 ⟨hp, by simp [ScannedPage.isOf, hps]⟩
  rw [htitles, filter_addPages, filter_filterMap_pageOf? hown]
  obtain ⟨first, rest, hsplit⟩ := List.exists_cons_of_ne_nil (List.ne_nil_of_mem hmem)
  rw [hsplit, List.map_cons, joined, List.flatMap_map, List.flatMap_cons]

end OwnTitle

/-- The values of a pass over what a symbol declares have the declared names, in order. -/
theorem map_name_of_run {config : ValuesConfig} {variant : Json} {catalog : Catalog}
    {values : List DeclaredValue} {job : Job} {r : Loose.PassResult} {s : Symbol}
    (hvalues : s.declaredValues = .ok values)
    (h : Loose.Pass.run (passOver config variant catalog (values.map DeclaredValue.toLoose) job) =
      .ok r) : r.values.map (·.name) = values.map fun v => .str v.name := by
  obtain ⟨documented, declared, -, hdeclared, halign⟩ := Loose.Pass.exists_of_run h
  obtain rfl : values.map DeclaredValue.toLoose = declared := Except.ok.inj hdeclared
  obtain ⟨hsorted, hnames⟩ := Loose.Pass.map_name_of_align halign
  obtain ⟨items, _, hitems⟩ := Outcome.bind_eq_ok_iff.1 hvalues
  have hordered : values.mergeSort (fun a b => a.order.le b.order) = values := by
    rw [← Except.ok.inj hitems]
    exact Metadata.mergeSort_numbered 0 _
  rw [DeclaredValue.sortedOn_order, hordered] at hsorted
  rw [hnames, ← Except.ok.inj hsorted, List.map_map]
  rfl

end Reconcile
end Kernels

namespace StagedRun

/-- **Each page is checked against its own symbol**, if no other symbol has a title that is equal to
that of this symbol.  Let both stages succeed in turn over a catalog whose symbols have different
paths, and let a page lead to such a symbol.  Exactly one result has the path of the symbol; its values
are those that the symbol declares, in order; and it is the pass over the values of just the pages that
lead to the symbol. -/
theorem exists_result_of_page (S : StagedRun) (hlegible : S.IsLegible) {config : ValuesConfig}
    {pages : List ScannedPage} {catalog : Catalog} {declared : List (List DeclaredValue)}
    (h : S.Reads config pages catalog declared)
    (hpaths : (catalog.symbols.map (·.path)).Nodup) {p : ScannedPage} (hp : p ∈ pages)
    {s : Symbol} (hps : catalog.find p.symbol = .ok (some s))
    (hown : ∀ other ∈ catalog.symbols, other.title.equal s.title = true → other = s) :
    ∃ (results : List Loose.PassResult) (r : Loose.PassResult) (values : List DeclaredValue),
      S.reconciled.data.field "symbols" = .ok (.arr (results.map Loose.PassResult.toJson)) ∧
      results.filter (·.contextPath = s.pathText) = [r] ∧
      s.declaredValues = .ok values ∧
      r.values.map (·.name) = values.map (fun v => .str v.name) ∧
      Loose.Pass.run (Reconcile.passOver config (setting S.config "variant") catalog
        (values.map DeclaredValue.toLoose)
        ⟨s, (pages.filter (·.isOf catalog s)).flatMap ScannedPage.entries⟩) = .ok r := by
  obtain ⟨found, results, ds, log, found', hfound, hpasses, hfindings, hdata⟩ :=
    S.exists_passes hlegible h
  obtain ⟨path, _, hload⟩ := h.catalog.load
  obtain ⟨tree, _, hcatalog⟩ := Outcome.bind_eq_ok_iff.1 hload
  have hlength := (Outcome.mapM_eq_ok_iff.1 h.catalog.extract).length_eq.symm
  obtain ⟨_, hruns, _⟩ := Reconcile.mapM_of_runPasses hlength hfound hpasses
  have hleads := Catalog.leadsTo?_eq_some_iff.2 hps
  obtain ⟨_, -, hs, -⟩ := Catalog.exists_of_find hps
  obtain ⟨values, hvalues, hlast⟩ := Reconcile.lastWith_eq h.catalog.extract hs hown
  -- a result has the path of its job
  have hfilter := List.rel_filter (p := fun job => Loose.Pass.contextPath (Reconcile.passOver config
      (setting S.config "variant") catalog (Reconcile.lastWith job.symbol.title
        (Declarations.byTitle catalog declared)) job) = s.pathText)
    (q := (·.contextPath = s.pathText))
    (fun job r hr => by simp [Loose.Pass.contextPath_of_run hr]) (Outcome.mapM_eq_ok_iff.1 hruns)
  rw [Reconcile.filter_contextPath_addPages hpaths
    (fun _ hother => Catalog.pathText_ne_empty hcatalog hother) hown hp hleads] at hfilter
  obtain ⟨r, rest, hr, hrest, hresult⟩ := List.forall₂_cons_left_iff.1 hfilter
  obtain rfl := List.forall₂_nil_left_iff.1 hrest
  rw [hlast] at hr
  exact ⟨results, r, values, hdata ▸ Reconcile.symbols_of_findings hfindings, hresult, hvalues,
    Reconcile.map_name_of_run hvalues hr, hr⟩

/-- In the small run the values of the one result at the path of the symbol are those that it
declares. -/
theorem exists_result_of_page_kindPage :
    ∃ (S : StagedRun) (config : ValuesConfig) (p : ScannedPage) (declared : List (List DeclaredValue))
      (results : List Loose.PassResult) (r : Loose.PassResult), S.w₀ = filesOf kindPage kindCatalog ∧
      S.IsLegible ∧ S.Reads config [p] kindSymbols declared ∧
      (kindSymbols.symbols.map (·.path)).Nodup ∧
      kindSymbols.find p.symbol = .ok (some kindSymbol) ∧
      (∀ other ∈ kindSymbols.symbols,
        other.title.equal kindSymbol.title = true → other = kindSymbol) ∧
      S.reconciled.data.field "symbols" = .ok (.arr (results.map Loose.PassResult.toJson)) ∧
      results.filter (·.contextPath = "//Kind") = [r] ∧ r.values.map (·.name) = [.str "Red"] := by
  obtain ⟨S, hconfig, hw₀, hlegible⟩ := exists_kindRun
  have htitle : (Page.ofText kindPage.toList).title = some "Kind" := by decide +kernel
  obtain ⟨config, p, declared, hreads, hsymbol⟩ := exists_reads_filesOf hconfig hw₀ kindSymbols
    (by decide +kernel) kindPage.toList (by decide +kernel) htitle
  have hfind : kindSymbols.find p.symbol = .ok (some kindSymbol) := by
    rw [hsymbol]
    exact Outcome.eq_ok_of_toOption (by decide +kernel)
  have hpaths : (kindSymbols.symbols.map (·.path)).Nodup := by decide +kernel
  have hown : ∀ other ∈ kindSymbols.symbols,
      other.title.equal kindSymbol.title = true → other = kindSymbol := by decide +kernel
  obtain ⟨results, r, values, hresults, hresult, hvalues, hnames, _⟩ :=
    S.exists_result_of_page hlegible hreads hpaths (List.mem_singleton_self p) hfind hown
  refine ⟨S, config, p, declared, results, r, hw₀, hlegible, hreads, hpaths, hfind, hown, hresults,
    hresult, ?_⟩
  have hdeclared : kindSymbol.declaredValues = .ok [⟨"Red", .whole 0⟩] := rfl
  rw [hnames, ← Except.ok.inj (hdeclared.symm.trans hvalues)]
  rfl

/-- A page of one of two symbols of a title. -/
def kindsPage : String := "# ``A/Kind``\n- PossibleValue Red: r"

/-- The two symbols, at different paths. -/
def kindsCatalog : String :=
  "\x7b\"symbols\": [\x7b\"title\": \"Kind\", \"path\": \"/A/Kind\", \"cases\": [\"Red\"]\x7d, " ++
    "\x7b\"title\": \"Kind\", \"path\": \"/B/Kind\", \"cases\": [\"Blue\"]\x7d]\x7d"

/-- The symbol of the page. -/
def kindA : Symbol := ⟨.str "Kind", .str "/A/Kind", [("cases", .arr [.str "Red"])]⟩

/-- The other symbol of its title. -/
def kindB : Symbol := ⟨.str "Kind", .str "/B/Kind", [("cases", .arr [.str "Blue"])]⟩

/-- A page may be checked against the values of another symbol of the same title: its symbol declares
`Red`, and the one result at the path of the symbol has the value `Blue` of the other. -/
theorem exists_result_of_other_values :
    ∃ (S : StagedRun) (config : ValuesConfig) (p : ScannedPage) (declared : List (List DeclaredValue))
      (r : Loose.PassResult), S.w₀ = filesOf kindsPage kindsCatalog ∧ S.IsLegible ∧
      S.Reads config [p] ⟨.str "", [kindA, kindB], []⟩ declared ∧
      Catalog.find ⟨.str "", [kindA, kindB], []⟩ p.symbol = .ok (some kindA) ∧
      kindA.declaredValues = .ok [⟨"Red", .whole 0⟩] ∧
      S.reconciled.data.field "symbols" = .ok (.arr [r.toJson]) ∧
      r.contextPath = kindA.pathText ∧ r.values.map (·.name) = [.str "Blue"] := by
  obtain ⟨S, hconfig, hw₀, hlegible⟩ : ∃ S : StagedRun, S.config = checkConfig ∧
      S.w₀ = filesOf kindsPage kindsCatalog ∧ S.IsLegible :=
    exists_of_succeeds (.ofString "ws") (by decide +kernel)
  have htitle : (Page.ofText kindsPage.toList).title = some "A/Kind" := by decide +kernel
  obtain ⟨config, p, declared, hreads, hsymbol⟩ := exists_reads_filesOf hconfig hw₀
    ⟨.str "", [kindA, kindB], []⟩ (by decide +kernel) kindsPage.toList (by decide +kernel) htitle
  have hfind : Catalog.find ⟨.str "", [kindA, kindB], []⟩ p.symbol = .ok (some kindA) := by
    rw [hsymbol]
    exact Outcome.eq_ok_of_toOption (by decide +kernel)
  obtain rfl : declared = [[⟨"Red", .whole 0⟩], [⟨"Blue", .whole 0⟩]] :=
    (Except.ok.inj hreads.catalog.extract).symm
  obtain ⟨found, results, ds, log, found', hfound, hpasses, hfindings, hdata⟩ :=
    S.exists_passes hlegible hreads
  obtain ⟨_, hruns, _⟩ := Reconcile.mapM_of_runPasses rfl hfound hpasses
  rw [Reconcile.addPages_singleton hfind] at hruns
  obtain ⟨r, rest, hr, hrest, rfl⟩ :=
    List.forall₂_cons_left_iff.1 (Outcome.mapM_eq_ok_iff.1 hruns)
  obtain rfl := List.forall₂_nil_left_iff.1 hrest
  -- the later of the two symbols declares the values that are kept under their title
  have hblue : kindB.declaredValues = .ok [⟨"Blue", .whole 0⟩] := rfl
  refine ⟨S, config, p, _, r, hw₀, hlegible, hreads, hfind, rfl,
    hdata ▸ Reconcile.symbols_of_findings hfindings, ?_, Reconcile.map_name_of_run hblue hr⟩
  rw [Loose.Pass.contextPath_of_run hr]
  exact Reconcile.contextPath_passOver (show kindA.pathText ≠ "" by decide +kernel)

end StagedRun
end ValueDocs
