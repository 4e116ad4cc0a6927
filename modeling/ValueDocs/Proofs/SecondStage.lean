import Mathlib.Data.List.Induction
import ValueDocs.Proofs.LoosePass
import ValueDocs.Proofs.Stages

/-!
# Proofs/SecondStage — the passes that the second stage runs

The second stage reads what the first one has found.  Each page joins the job of the title it leads
to (`filter_addPages`), and the passes run are those of the jobs that the pages make up
(`mapM_of_runPasses`).  A symbol with a title of its own is given the values that it declares
(`lastWith_eq`).
-/

namespace ValueDocs

open Kernels

/-! ## Paths are shown -/

theorem Binary64.writeDecimal_ne_nil (style : Style) (x : Decimal) : style.writeDecimal x ≠ [] := by
  rw [Style.writeDecimal]
  dsimp only
  split
  · split
    · simp
    · split <;> simp
  · simp

/-- What is given is shown by some text. -/
theorem Json.display_ne_empty {j : Json} (h : j.truthy = true) : j.display ≠ "" := by
  have hne {s : String} (hs : s.toList ≠ []) : s ≠ "" := fun hempty => hs (by rw [hempty]; rfl)
  cases j with
  | null => cases h
  | bool b => cases b <;> decide
  | int n =>
    refine hne ?_
    rw [display, literal, Int.toString_eq_repr, Int.repr_eq_if]
    · split
      · rw [Nat.toList_repr]
        exact Nat.toDigits_ne_nil
      · simp
    · intro _ h
      cases h
  | float x =>
    refine hne ?_
    rw [display, literal]
    · cases x with
      | notANumber => decide
      | infinite negative => cases negative <;> decide
      | finite negative m e =>
        rw [Binary64.Style.write, String.toList_ofList]
        split
        · exact List.cons_ne_nil _ _
        · split
          · decide
          · exact Binary64.writeDecimal_ne_nil _ _
    · intro _ h
      cases h
  | str s => simpa [display, truthy] using h
  | arr js => simp [display, literal]
  | obj fs => simp [display, literal]

theorem Symbol.truthy_path {module j : Json} {s : Symbol} (h : Symbol.ofJson module j = .ok s) :
    s.path.truthy = true := by
  obtain ⟨title, -, hrest⟩ := Outcome.bind_eq_ok_iff.1 h
  cases htitle : title.truthy with
  | false => simp only [htitle] at hrest; cases hrest
  | true =>
    simp only [htitle] at hrest
    obtain ⟨path, -, hsymbol⟩ := Outcome.bind_eq_ok_iff.1 hrest
    obtain rfl := Except.ok.inj hsymbol
    dsimp only
    split
    · next hpath => exact hpath
    · simp [Json.truthy]

/-- Every symbol of a catalog that is read has a path that is shown. -/
theorem Catalog.pathText_ne_empty {j : Json} {c : Catalog} (h : Catalog.ofJson j = .ok c)
    {s : Symbol} (hs : s ∈ c.symbols) : s.pathText ≠ "" := by
  obtain ⟨module, -, hrest⟩ := Outcome.bind_eq_ok_iff.1 h
  obtain ⟨list, -, hrest⟩ := Outcome.bind_eq_ok_iff.1 hrest
  obtain ⟨symbols, hsymbols, hrest⟩ := Outcome.bind_eq_ok_iff.1 hrest
  obtain ⟨_, -, hrest⟩ := Outcome.bind_eq_ok_iff.1 hrest
  obtain ⟨articles, -, hcatalog⟩ := Outcome.bind_eq_ok_iff.1 hrest
  obtain rfl := Except.ok.inj hcatalog
  obtain ⟨items, -, hitems⟩ := Outcome.bind_eq_ok_iff.1 hsymbols
  obtain ⟨item, -, hitem⟩ := Outcome.exists_of_mem_mapM hitems hs
  exact Json.display_ne_empty (Symbol.truthy_path hitem)

/-- The symbol that a reference leads to, if it can be looked up. -/
def Catalog.leadsTo? (c : Catalog) (reference : Json) : Option Symbol :=
  match c.find reference with
  | .ok found => found
  | .error _ => none

/-- A symbol that is found is listed, and a text names it. -/
theorem Catalog.exists_of_find {c : Catalog} {reference : Json} {s : Symbol}
    (h : c.find reference = .ok (some s)) :
    ∃ name, reference = .str name ∧ s ∈ c.symbols ∧ s.isNamedBy name = true := by
  cases reference with
  | str name =>
    rw [find_text] at h
    split at h
    · have hfound : c.symbols.find? (·.isNamedBy name) = some s := Except.ok.inj h
      exact ⟨name, rfl, List.mem_of_find?_eq_some hfound, by simpa using List.find?_some hfound⟩
    · cases h
  | _ =>
    -- nothing but a text is looked up, unless there is no symbol to ask
    rw [find] at h
    cases hsymbols : c.symbols with
    | nil => rw [hsymbols] at h; cases h
    | cons => rw [hsymbols] at h; cases h

theorem Catalog.leadsTo?_eq_some_iff {c : Catalog} {reference : Json} {s : Symbol} :
    c.leadsTo? reference = some s ↔ c.find reference = .ok (some s) := by
  rw [leadsTo?]
  split
  · next h => rw [h, Except.ok.injEq]
  · next h => rw [h]; exact ⟨nofun, nofun⟩

/-! ## What the second stage reads -/

namespace Kernels

/-- The values of a page as the second stage reads them: each for the variant of the page. -/
def ScannedPage.entries (p : ScannedPage) : List Loose.DocumentedValue :=
  p.values.map fun v => { v.toLoose with variant := p.variant }

/-- What symbols declare, by their titles. -/
def Declarations.byTitle (catalog : Catalog) (declared : List (List DeclaredValue)) :
    List (Json × List Loose.DeclaredValue) :=
  List.zipWith (fun s values => (s.title, values.map DeclaredValue.toLoose)) catalog.symbols declared

namespace Reconcile

theorem data_of_findings {pages : List ScannedPage} {found : Findings}
    (h : Directives.findings pages = .ok found) :
    found.data.get "pages" (.arr []) = .ok (.arr (pages.map ScannedPage.toJson)) := by
  obtain ⟨_, -, hfound⟩ := Outcome.bind_eq_ok_iff.1 h
  obtain rfl := Except.ok.inj hfound
  exact Json.get_cons_self

/-- The catalog is read back as the first stage read it. -/
theorem catalogOf_findings {catalog : Catalog} {declared : List (List DeclaredValue)}
    (h : declared.length = catalog.symbols.length) :
    catalogOf (Declarations.findings catalog declared).data = .ok catalog := by
  obtain ⟨module, symbols, articles⟩ := catalog
  have hsymbols : (Json.arr (List.zipWith Declarations.symbolJson symbols declared)).mapElements
      symbolOf = .ok symbols := by
    refine Outcome.mapM_eq_ok_iff.2 ?_
    dsimp only at h
    induction symbols generalizing declared with
    | nil => exact .nil
    | cons s symbols ih =>
      cases declared with
      | nil => cases h
      | cons d declared => exact .cons (symbolOf_symbolJson s d) (ih (Nat.succ.inj h))
  simp [Declarations.findings, catalogOf, Json.get_cons_of_ne, hsymbols, Json.elements, bind,
    Except.bind, pure, Except.pure]

theorem eq_of_keptBy {j k : Json} (h : j.keptBy = .ok k) : k = j := by
  cases j <;> cases h <;> rfl

/-- What symbols declare is read back by their titles. -/
theorem declaredOf_findings {catalog : Catalog} {declared : List (List DeclaredValue)}
    {table : List (Json × List Loose.DeclaredValue)}
    (h : declaredOf (Declarations.findings catalog declared).data = .ok table) :
    table = Declarations.byTitle catalog declared := by
  obtain ⟨list, hlist, hrest⟩ := Outcome.bind_eq_ok_iff.1 h
  obtain rfl : Json.arr (List.zipWith Declarations.symbolJson catalog.symbols declared) = list := by
    simpa [Declarations.findings, Json.get_cons_of_ne] using hlist
  refine Outcome.eq_zipWith_of_mapM ?_ hrest
  intro s values row hrow
  have hvalues : (Json.arr (values.map DeclaredValue.toJson)).mapElements
      Loose.DeclaredValue.ofJson = .ok (values.map DeclaredValue.toLoose) := by
    rw [Json.mapElements_arr, Outcome.mapM_eq_ok_iff, List.forall₂_map_left_iff,
      List.forall₂_map_right_iff]
    exact List.forall₂_same.2 fun v _ => ofJson_declaredJson v
  simp only [Declarations.symbolJson, Symbol.toJson, List.cons_append, List.nil_append,
    Json.field_cons_self, Json.get_cons_self, Json.get_cons_of_ne, ne_eq, String.reduceEq,
    not_false_eq_true, Outcome.bind_eq_ok_iff, Except.ok.injEq, exists_eq_left', hvalues] at hrow
  obtain ⟨title, htitle, hrow⟩ := hrow
  obtain rfl := eq_of_keptBy htitle
  exact (Except.ok.inj hrow).symm

/-! ## Pages join jobs -/

/-- What is read of a page in an earlier output: its symbol, and its values. -/
def readPage (catalog : Catalog) (page : Json) : Outcome (Symbol × List Loose.DocumentedValue) := do
  return (← symbolOfPage catalog page, ← valuesOfPage page)

/-- The jobs for some pages. -/
def addPages (jobs : List Job) (pages : List (Symbol × List Loose.DocumentedValue)) : List Job :=
  pages.foldl (fun jobs p => addPage p.1 p.2 jobs) jobs

/-- The job that pages of one title make up, if there is one. -/
def joined : List (Symbol × List Loose.DocumentedValue) → List Job
  | [] => []
  | (symbol, values) :: rest => [⟨symbol, values ++ rest.flatMap (·.2)⟩]

section

variable {symbol : Symbol} {title : Json} {values : List Loose.DocumentedValue} {jobs : List Job}

/-- A page leaves the jobs of other titles as they are. -/
theorem filter_addPage_of_ne (h : symbol.title.equal title = false) :
    (addPage symbol values jobs).filter (·.symbol.title.equal title) =
      jobs.filter (·.symbol.title.equal title) := by
  induction jobs with
  | nil => simp [addPage, h]
  | cons job rest ih =>
    rw [addPage]
    split
    · next heq =>
      have hne := (Json.equal_congr heq title).trans h
      rw [List.filter_cons_of_neg (by simp [hne]), List.filter_cons_of_neg (by simp [hne])]
    · rw [List.filter_cons, List.filter_cons, ih]

/-- A page joins the job of its title. -/
theorem filter_addPage {earlier : List (Symbol × List Loose.DocumentedValue)}
    (htitle : symbol.title.equal title = true)
    (h : jobs.filter (·.symbol.title.equal title) = joined earlier) :
    (addPage symbol values jobs).filter (·.symbol.title.equal title) =
      joined (earlier ++ [(symbol, values)]) := by
  induction jobs with
  | nil =>
    cases earlier with
    | nil => simp [addPage, joined, htitle]
    | cons => cases h
  | cons job rest ih =>
    have hjob : job.symbol.title.equal symbol.title = job.symbol.title.equal title := by
      rw [Json.equal_comm, Json.equal_comm _ title]
      exact Json.equal_congr htitle _
    rw [addPage, hjob]
    split
    · next heq =>
      rw [List.filter_cons_of_pos (by simpa using heq)] at h
      cases earlier with
      | nil => cases h
      | cons p earlier =>
        obtain ⟨rfl, hrest⟩ := List.cons.inj h
        rw [List.filter_cons_of_pos (by simpa using heq), hrest]
        simp [joined]
    · next hne =>
      rw [List.filter_cons_of_neg (by simpa using hne)] at h ⊢
      exact ih h

end

/-- **The job of a title is over all the pages of that title**, and there is one if there is such
a page. -/
theorem filter_addPages (pages : List (Symbol × List Loose.DocumentedValue)) (title : Json) :
    (addPages [] pages).filter (·.symbol.title.equal title) =
      joined (pages.filter (·.1.title.equal title)) := by
  induction pages using List.reverseRecOn with
  | nil => rfl
  | append_singleton pages p ih =>
    have hsnoc : addPages [] (pages ++ [p]) = addPage p.1 p.2 (addPages [] pages) :=
      List.foldl_append
    rw [hsnoc, List.filter_append]
    cases h : p.1.title.equal title with
    | true => rw [filter_addPage h ih, List.filter_cons_of_pos (by simpa using h), List.filter_nil]
    | false =>
      rw [filter_addPage_of_ne h, List.filter_cons_of_neg (by simp [h]), List.filter_nil,
        List.append_nil, ih]

/-- The symbol of a job is that of a page. -/
theorem exists_of_mem_addPages {pages : List (Symbol × List Loose.DocumentedValue)} {job : Job}
    (h : job ∈ addPages [] pages) : ∃ p ∈ pages, p.1 = job.symbol := by
  have hmem : job ∈ (addPages [] pages).filter (·.symbol.title.equal job.symbol.title) :=
    List.mem_filter.2 ⟨h, Json.equal_refl _⟩
  rw [filter_addPages] at hmem
  cases hpages : pages.filter (·.1.title.equal job.symbol.title) with
  | nil =>
    rw [hpages] at hmem
    cases hmem
  | cons p rest =>
    rw [hpages, joined, List.mem_singleton] at hmem
    exact ⟨p, List.mem_of_mem_filter (hpages ▸ List.mem_cons_self ..), by rw [hmem]⟩

/-! ## The jobs of a run -/

/-- **The jobs are those that the pages make up**, as they are read. -/
theorem exists_of_jobsOf {catalog : Catalog} {pages : List Json} {jobs : List Job}
    (h : jobsOf catalog pages = .ok jobs) :
    ∃ read, pages.mapM (readPage catalog) = .ok read ∧ jobs = addPages [] read := by
  refine Outcome.exists_mapM_of_foldlM (v := id)
    (k := fun jobs (p : Symbol × List Loose.DocumentedValue) => addPage p.1 p.2 jobs) ?_ h
  intro jobs page jobs' hstep
  obtain ⟨symbol, hsymbol, hstep⟩ := Outcome.bind_eq_ok_iff.1 hstep
  obtain ⟨values, hvalues, hstep⟩ := Outcome.bind_eq_ok_iff.1 hstep
  refine ⟨(symbol, values), Outcome.bind_eq_ok_iff.2 ⟨symbol, hsymbol,
    Outcome.bind_eq_ok_iff.2 ⟨values, hvalues, rfl⟩⟩, ?_⟩
  dsimp only at hstep
  split at hstep
  · obtain ⟨_, -, hstep⟩ := Outcome.bind_eq_ok_iff.1 hstep
    exact (Except.ok.inj hstep).symm
  · exact (Except.ok.inj hstep).symm

theorem find_of_symbolOfPage {catalog : Catalog} {p : ScannedPage} {s : Symbol}
    (h : symbolOfPage catalog p.toJson = .ok s) : catalog.find p.symbol = .ok (some s) := by
  obtain ⟨name, hname, hrest⟩ := Outcome.bind_eq_ok_iff.1 h
  obtain rfl : p.symbol = name := by
    simpa [ScannedPage.toJson, Json.field_cons_of_ne] using hname
  obtain ⟨found, hfound, hsome⟩ := Outcome.bind_eq_ok_iff.1 hrest
  cases found with
  | none =>
    obtain ⟨_, _, hthrow⟩ := Outcome.bind_eq_ok_iff.1 hsome
    cases hthrow
  | some s' =>
    obtain rfl := Except.ok.inj hsome
    exact hfound

/-- The values of a page are read back for the variant of the page. -/
theorem valuesOfPage_toJson (p : ScannedPage) : valuesOfPage p.toJson = .ok p.entries := by
  have hlist : p.toJson.get "entries" (.arr []) =
      .ok (.arr (p.values.map (ScannedPage.valueJson p.variant))) := by
    simp [ScannedPage.toJson, Json.get_cons_of_ne]
  refine Outcome.bind_eq_ok_iff.2 ⟨_, hlist, ?_⟩
  rw [Json.mapElements_arr, Outcome.mapM_eq_ok_iff, ScannedPage.entries, List.forall₂_map_left_iff,
    List.forall₂_map_right_iff]
  exact List.forall₂_same.2 fun v _ => ofJson_valueJson p.variant v

/-- What is read of a page of the first stage: the symbol it leads to, and its values. -/
theorem find_of_readPage {catalog : Catalog} {p : ScannedPage}
    {read : Symbol × List Loose.DocumentedValue} (h : readPage catalog p.toJson = .ok read) :
    catalog.find p.symbol = .ok (some read.1) ∧ read.2 = p.entries := by
  obtain ⟨symbol, hsymbol, h⟩ := Outcome.bind_eq_ok_iff.1 h
  rw [valuesOfPage_toJson] at h
  obtain rfl := Except.ok.inj h
  exact ⟨find_of_symbolOfPage hsymbol, rfl⟩

/-- What a page of the first stage adds to the jobs: the symbol it leads to, and its values. -/
def pageOf? (catalog : Catalog) (p : ScannedPage) :
    Option (Symbol × List Loose.DocumentedValue) :=
  (catalog.leadsTo? p.symbol).map fun s => (s, p.entries)

/-- **The jobs over pages of the first stage**: each page leads to a symbol, and the pages make up
the jobs. -/
theorem jobs_of_jobsOf {catalog : Catalog} {pages : List ScannedPage} {jobs : List Job}
    (h : jobsOf catalog (pages.map ScannedPage.toJson) = .ok jobs) :
    (∀ p ∈ pages, ∃ s, catalog.find p.symbol = .ok (some s)) ∧
      jobs = addPages [] (pages.filterMap (pageOf? catalog)) := by
  obtain ⟨read, hread, rfl⟩ := exists_of_jobsOf h
  have hall := List.forall₂_map_left_iff.1 (Outcome.mapM_eq_ok_iff.1 hread)
  clear h hread
  suffices hsame : (∀ p ∈ pages, ∃ s, catalog.find p.symbol = .ok (some s)) ∧
      read = pages.filterMap (pageOf? catalog) from ⟨hsame.1, congrArg _ hsame.2⟩
  induction hall with
  | nil => exact ⟨fun _ h => (List.not_mem_nil h).elim, rfl⟩
  | @cons p q pages read hp _ ih =>
    obtain ⟨hfind, hvalues⟩ := find_of_readPage hp
    have hpage : pageOf? catalog p = some q := by
      rw [pageOf?, Catalog.leadsTo?, hfind, ← hvalues]
      rfl
    exact ⟨List.forall_mem_cons.2 ⟨⟨_, hfind⟩, ih.1⟩,
      by rw [List.filterMap_cons_some hpage, ← ih.2]⟩

/-- A page alone makes up the job over its values. -/
theorem addPages_singleton {catalog : Catalog} {p : ScannedPage} {s : Symbol}
    (h : catalog.find p.symbol = .ok (some s)) :
    addPages [] ([p].filterMap (pageOf? catalog)) = [⟨s, p.entries⟩] := by
  have hpage : pageOf? catalog p = some (s, p.entries) := by
    rw [pageOf?, Catalog.leadsTo?, h]
    rfl
  rw [List.filterMap_cons_some hpage]
  rfl

/-- **The passes that are run** are those over the pages in an earlier output. -/
theorem exists_of_runPasses {config : ValuesConfig} {variant canonical documented : Json}
    {results : List Loose.PassResult} {ds : List Loose.Diagnostic}
    (h : runPasses config variant canonical documented = .ok (results, ds)) :
    ∃ catalog table list pages jobs,
      catalogOf canonical = .ok catalog ∧ declaredOf canonical = .ok table ∧
      documented.get "pages" (.arr []) = .ok list ∧ list.elements = .ok pages ∧
      jobsOf catalog pages = .ok jobs ∧
      jobs.mapM (fun job => Loose.Pass.run
        (passOver config variant catalog (lastWith job.symbol.title table) job)) = .ok results ∧
      Loose.Diagnostic.sort (results.flatMap (·.diagnostics)) = .ok ds := by
  obtain ⟨catalog, hcatalog, hrest⟩ := Outcome.bind_eq_ok_iff.1 h
  obtain ⟨table, htable, hrest⟩ := Outcome.bind_eq_ok_iff.1 hrest
  obtain ⟨list, hlist, hrest⟩ := Outcome.bind_eq_ok_iff.1 hrest
  obtain ⟨pages, hpages, hrest⟩ := Outcome.bind_eq_ok_iff.1 hrest
  obtain ⟨jobs, hjobs, hrest⟩ := Outcome.bind_eq_ok_iff.1 hrest
  obtain ⟨⟨results', engine⟩, hrun, hrest⟩ := Outcome.bind_eq_ok_iff.1 hrest
  obtain ⟨results'', hmap, hrun⟩ := Outcome.bind_eq_ok_iff.1 hrun
  obtain ⟨rfl, rfl⟩ := Prod.mk.inj (Except.ok.inj hrun)
  obtain ⟨ds', hdrain, hrest⟩ := Outcome.bind_eq_ok_iff.1 hrest
  obtain ⟨rfl, rfl⟩ := Prod.mk.inj (Except.ok.inj hrest)
  exact ⟨catalog, table, list, pages, jobs, hcatalog, htable, hlist, hpages, hjobs,
    by rwa [List.mapM_map] at hmap, hdrain⟩

/-- **The passes of the second stage** over the findings of the first one: each page leads to a symbol,
and pages that lead to symbols of one title make up one job. -/
theorem mapM_of_runPasses {config : ValuesConfig} {variant : Json} {catalog : Catalog}
    {declared : List (List DeclaredValue)} {pages : List ScannedPage} {found : Findings}
    {results : List Loose.PassResult} {ds : List Loose.Diagnostic}
    (hlength : declared.length = catalog.symbols.length)
    (hfound : Directives.findings pages = .ok found)
    (h : runPasses config variant (Declarations.findings catalog declared).data found.data =
      .ok (results, ds)) :
    (∀ p ∈ pages, ∃ s, catalog.find p.symbol = .ok (some s)) ∧
    (addPages [] (pages.filterMap (pageOf? catalog))).mapM (fun job => Loose.Pass.run
      (passOver config variant catalog
        (lastWith job.symbol.title (Declarations.byTitle catalog declared)) job)) = .ok results ∧
    Loose.Diagnostic.sort (results.flatMap (·.diagnostics)) = .ok ds := by
  obtain ⟨catalog', table, list, items, jobs, hcatalog, htable, hlist, hitems, hjobs, hmap,
    hsort⟩ := exists_of_runPasses h
  obtain rfl : catalog = catalog' :=
    Except.ok.inj ((catalogOf_findings hlength).symm.trans hcatalog)
  obtain rfl := declaredOf_findings htable
  obtain rfl := Except.ok.inj ((data_of_findings hfound).symm.trans hlist)
  obtain rfl := Except.ok.inj hitems
  obtain ⟨hfind, rfl⟩ := jobs_of_jobsOf hjobs
  exact ⟨hfind, hmap, hsort⟩

/-- **The data of the second stage**: the results, their diagnostics, and how many there are. -/
theorem data_eq_of_findings {results : List Loose.PassResult} {ds : List Loose.Diagnostic}
    {log : DiagnosticLog} {found : Findings} (h : findings results ds log = .ok found) :
    found.data = .obj [("symbols", .arr (results.map Loose.PassResult.toJson)),
      ("diagnostics", .arr (ds.map Loose.Diagnostic.toJson)), ("total_symbols", .int results.length),
      ("total_diagnostics", .int ds.length),
      ("by_kind", .obj ((countKinds ds).map fun (name, n) => (name, .int n))),
      ("diagnostics_file", .str log.recordFile.toString)] := by
  obtain ⟨symbols, hsymbols, h⟩ := Outcome.bind_eq_ok_iff.1 h
  have htree {r : Loose.PassResult} {j : Json} (hr : r.tree = .ok j) : id j = r.toJson := by
    rw [Loose.PassResult.tree] at hr
    split at hr
    · exact (Except.ok.inj hr).symm
    · cases hr
  rw [← Except.ok.inj h, ← Outcome.map_eq_of_mapM htree hsymbols, List.map_id]

/-- The data lists the results. -/
theorem symbols_of_findings {results : List Loose.PassResult} {ds : List Loose.Diagnostic}
    {log : DiagnosticLog} {found : Findings} (h : findings results ds log = .ok found) :
    found.data.field "symbols" = .ok (.arr (results.map Loose.PassResult.toJson)) := by
  rw [data_eq_of_findings h]
  exact Json.field_cons_self

/-- It lists the diagnostics, too. -/
theorem diagnostics_of_findings {results : List Loose.PassResult} {ds : List Loose.Diagnostic}
    {log : DiagnosticLog} {found : Findings} (h : findings results ds log = .ok found) :
    found.data.field "diagnostics" = .ok (.arr (ds.map Loose.Diagnostic.toJson)) := by
  rw [data_eq_of_findings h]
  exact (Json.field_cons_of_ne (by decide)).trans Json.field_cons_self

/-! ## Symbols with titles of their own -/

theorem mem_byTitle {symbols : List Symbol} {declared : List (List DeclaredValue)}
    (h : List.Forall₂ (fun s values => s.declaredValues = .ok values) symbols declared)
    {row : Json × List Loose.DeclaredValue}
    (hrow : row ∈ List.zipWith (fun s values => (s.title, values.map DeclaredValue.toLoose)) symbols
      declared) :
    ∃ s ∈ symbols, ∃ values, s.title = row.1 ∧ s.declaredValues = .ok values ∧
      row.2 = values.map DeclaredValue.toLoose := by
  induction h with
  | nil => cases hrow
  | @cons s values symbols declared hvalues _ ih =>
    rcases List.mem_cons.1 hrow with rfl | hrow
    · exact ⟨s, List.mem_cons_self .., values, rfl, hvalues, rfl⟩
    · obtain ⟨s', hs', hread⟩ := ih hrow
      exact ⟨s', List.mem_cons_of_mem _ hs', hread⟩

theorem exists_mem_byTitle {symbols : List Symbol} {declared : List (List DeclaredValue)}
    (h : List.Forall₂ (fun s values => s.declaredValues = .ok values) symbols declared)
    {s : Symbol} (hs : s ∈ symbols) :
    ∃ values, (s.title, values) ∈ List.zipWith
      (fun s values => (s.title, values.map DeclaredValue.toLoose)) symbols declared := by
  induction h with
  | nil => cases hs
  | @cons s' values symbols declared _ _ ih =>
    rcases List.mem_cons.1 hs with rfl | hs
    · exact ⟨_, List.mem_cons_self ..⟩
    · obtain ⟨values', hmem⟩ := ih hs
      exact ⟨values', List.mem_cons_of_mem _ hmem⟩

/-- **A symbol with a title of its own is given the values it declares.** -/
theorem lastWith_eq {catalog : Catalog} {declared : List (List DeclaredValue)}
    (h : catalog.symbols.mapM Symbol.declaredValues = .ok declared) {s : Symbol}
    (hs : s ∈ catalog.symbols)
    (hown : ∀ other ∈ catalog.symbols, other.title.equal s.title = true → other = s) :
    ∃ values, s.declaredValues = .ok values ∧
      lastWith s.title (Declarations.byTitle catalog declared) =
        values.map DeclaredValue.toLoose := by
  have hall := Outcome.mapM_eq_ok_iff.1 h
  rw [lastWith, Declarations.byTitle]
  cases hfind : List.find? (fun row : Json × List Loose.DeclaredValue => row.1.equal s.title)
      (List.reverse _) with
  | none =>
    obtain ⟨values, hmem⟩ := exists_mem_byTitle hall hs
    exact absurd (Json.equal_refl s.title)
      (List.find?_eq_none.1 hfind _ (List.mem_reverse.2 hmem))
  | some row =>
    have hmem := List.mem_reverse.1 (List.mem_of_find?_eq_some hfind)
    have htitle : row.1.equal s.title = true :=
      List.find?_some (p := fun row : Json × List Loose.DeclaredValue => row.1.equal s.title) hfind
    obtain ⟨other, hother, values, hrow, hvalues, hrest⟩ := mem_byTitle hall hmem
    obtain rfl := hown other hother (hrow ▸ htitle)
    exact ⟨values, hvalues, hrest⟩

end Reconcile
end Kernels
end ValueDocs
