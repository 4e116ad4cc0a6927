import ValueDocs.Proofs.KernelRuns
import ValueDocs.Proofs.Records

/-!
# Proofs/Stages — what the kernels of both stages have done if they succeed in turn

The two kernels of the first stage read the pages and the catalog, and the one of the second stage
reads the outputs of both.  When all three succeed, the second stage has run the passes over the
pages and the catalog as the first one read them (`StagedRun.exists_passes`).
-/

namespace ValueDocs

open Kernels

/-! ## One stage -/

namespace Kernels

variable {input : KernelInput} {found : Findings} {w w' : World}

/-- The setting of a configuration, null if there is none. -/
def setting (config : Json.Fields) (name : String) : Json := (config.lookup name).getD .null

/-- Whether pages are those that a configuration names, as they are read from files. -/
structure Directives.Reads (given : Json.Fields) (files : FileTree) (config : ValuesConfig)
    (pages : List ScannedPage) : Prop where
  values : (ValuesConfig.ofJson (setting given "values")).run.1 = .ok config
  read : (setting given "pages").mapElements (fun item => do
    ScannedPage.read config (← PageSpec.ofJson item) files) = .ok pages

/-- Whether a catalog is the one that a configuration names, with what its symbols declare. -/
structure Declarations.Reads (given : Json.Fields) (files : FileTree) (catalog : Catalog)
    (declared : List (List DeclaredValue)) : Prop where
  load : ∃ path, setting given "catalog" = .str path ∧
    Catalog.load files (.ofString path) = .ok catalog
  extract : catalog.symbols.mapM Symbol.declaredValues = .ok declared

/-- What is known of a page that has been read. -/
theorem ScannedPage.exists_of_read {config : ValuesConfig} {spec : PageSpec}
    {files : FileTree} {p : ScannedPage} (h : read config spec files = .ok p) :
    ∃ text, files.readText (.ofString spec.path) = .ok text ∧
      Pass.scanBody config (some spec.path) (Page.ofText text).offset none
        (String.ofList (Page.ofText text).body) = .ok p.values ∧
      p.symbol = (if spec.symbol.truthy then spec.symbol else .ofText? (Page.ofText text).title) ∧
      p.variant = spec.variant := by
  obtain ⟨isFile, _, hrest⟩ := Outcome.bind_eq_ok_iff.1 h
  dsimp only at hrest
  split at hrest
  · cases hrest
  · obtain ⟨text, htext, hrest⟩ := Outcome.bind_eq_ok_iff.1 hrest
    generalize hsymbol : (if spec.symbol.truthy = true then spec.symbol else
      Json.ofText? (Page.ofText text).title) = symbol at hrest
    split at hrest
    · cases hrest
    · obtain ⟨values, hvalues, hrest⟩ := Outcome.bind_eq_ok_iff.1 hrest
      obtain rfl := Except.ok.inj hrest
      exact ⟨text, htext, hvalues, hsymbol.symm, rfl⟩

/-- The first stage reads a page that a check names. -/
theorem Directives.Reads.exists_page {given : Json.Fields} {files : FileTree}
    {config : ValuesConfig} {pages : List ScannedPage} {path : String} {variant : Json}
    (h : Directives.Reads given files config pages)
    (hpages : setting given "pages" = .arr [.obj [("path", .str path), ("variant", variant)]])
    {text : List Char} (htext : files.readText (.ofString path) = .ok text) {title : String}
    (htitle : (Page.ofText text).title = some title) :
    ∃ p, pages = [p] ∧ p.symbol = .str title ∧ p.variant = variant ∧
      Pass.scanBody config (some path) (Page.ofText text).offset none
        (String.ofList (Page.ofText text).body) = .ok p.values := by
  have hread := h.read
  rw [hpages, Json.mapElements_arr] at hread
  obtain ⟨p, rest, hp, hrest, hcons⟩ :=
    List.forall₂_cons_left_iff.1 (Outcome.mapM_eq_ok_iff.1 hread)
  obtain rfl := List.forall₂_nil_left_iff.1 hrest
  obtain ⟨spec, hspec, hp⟩ := Outcome.bind_eq_ok_iff.1 hp
  have hspec : (⟨path, variant, .null⟩ : PageSpec) = spec := by
    simp only [PageSpec.ofJson, Json.get_cons_self, Json.get_cons_of_ne, ne_eq, String.reduceEq,
      not_false_eq_true, Json.get_nil, bind, Except.bind, pure, Except.pure] at hspec
    split at hspec
    · cases hspec
    · exact Except.ok.inj hspec
  subst hspec
  obtain ⟨text', htext', hvalues, hsymbol, hvariant⟩ := ScannedPage.exists_of_read hp
  obtain rfl := Except.ok.inj (htext.symm.trans htext')
  exact ⟨p, hcons, by rw [hsymbol, htitle]; rfl, hvariant, hvalues⟩

theorem Directives.Reads.unique {given : Json.Fields} {files : FileTree}
    {config config' : ValuesConfig} {pages pages' : List ScannedPage}
    (h : Reads given files config pages) (h' : Reads given files config' pages') :
    config = config' ∧ pages = pages' := by
  obtain rfl := Except.ok.inj (h.values.symm.trans h'.values)
  exact ⟨rfl, Except.ok.inj (h.read.symm.trans h'.read)⟩

theorem Declarations.Reads.unique {given : Json.Fields} {files : FileTree}
    {catalog catalog' : Catalog} {declared declared' : List (List DeclaredValue)}
    (h : Reads given files catalog declared) (h' : Reads given files catalog' declared') :
    catalog = catalog' ∧ declared = declared' := by
  obtain ⟨path, hpath, hload⟩ := h.load
  obtain ⟨path', hpath', hload'⟩ := h'.load
  obtain rfl := Json.str.inj (hpath.symm.trans hpath')
  obtain rfl := Except.ok.inj (hload.symm.trans hload')
  exact ⟨rfl, Except.ok.inj (h.extract.symm.trans h'.extract)⟩

theorem Directives.exists_reads (h : (compute input).run w = (.ok found, w')) :
    ∃ config pages, Reads input.config w.files config pages ∧ findings pages = .ok found ∧
      w'.files = w.files := by
  rw [compute] at h
  split at h
  · cases h
  · obtain ⟨config, w₁, hconfig, hrest⟩ := Work.run_bind_eq_ok_iff.1 h
    obtain ⟨hvalues, rfl⟩ := Work.run_ofAttempt_eq_ok_iff.1 hconfig
    rw [Work.run_bind_of_eq_ok (Work.run_files _)] at hrest
    obtain ⟨hfound, rfl⟩ := Work.run_ofOutcome_eq_ok_iff.1 hrest
    obtain ⟨pages, hpages, hfindings⟩ := Outcome.bind_eq_ok_iff.1 hfound
    exact ⟨config, pages, ⟨hvalues, hpages⟩, hfindings, rfl⟩

theorem Declarations.exists_reads (h : (compute input).run w = (.ok found, w')) :
    ∃ catalog declared, Reads input.config w.files catalog declared ∧
      found = findings catalog declared ∧ w' = w := by
  rw [compute] at h
  split at h
  · cases h
  · rw [Work.run_bind_of_eq_ok (Work.run_files _)] at h
    obtain ⟨hfound, rfl⟩ := Work.run_ofOutcome_eq_ok_iff.1 h
    obtain ⟨path, hpath, hrest⟩ := Outcome.bind_eq_ok_iff.1 hfound
    obtain ⟨isFile, -, hrest⟩ := Outcome.bind_eq_ok_iff.1 hrest
    split at hrest
    · cases hrest
    · obtain ⟨catalog, hcatalog, hrest⟩ := Outcome.bind_eq_ok_iff.1 hrest
      obtain ⟨declared, hdeclared, hrest⟩ := Outcome.bind_eq_ok_iff.1 hrest
      refine ⟨catalog, declared, ⟨⟨path, ?_, hcatalog⟩, hdeclared⟩, (Except.ok.inj hrest).symm, rfl⟩
      rw [setting]
      revert hpath
      cases (input.config.lookup "catalog").getD .null with
      | str s => exact fun h => congrArg Json.str (Except.ok.inj h)
      | _ => exact nofun

theorem Reconcile.run_dependency {name : String} {path : Path} {data : Json}
    (hpath : input.dependencies.lookup name = some path)
    (hdata : Kernel.loadData w.files path = .ok data) :
    (dependency input name).run w = (.ok data, w) := by
  rw [dependency, Work.run_bind_of_eq_ok (Work.run_files w), hpath]
  exact Work.run_ofOutcome_eq_ok_iff.2 ⟨hdata, rfl⟩

/-- **What the second stage does**: it runs the passes, opens the log and empties it, and logs the
diagnostics of the passes. -/
theorem Reconcile.exists_of_run_computeFrom {documented canonical : Json}
    (h : (computeFrom input documented canonical).run w = (.ok found, w')) :
    ∃ config results ds log w₁ w₂ w₃ w₄ n,
      (ValuesConfig.ofJson (setting input.config "values")).run.1 = .ok config ∧
      runPasses config (setting input.config "variant") canonical documented = .ok (results, ds) ∧
      findings results ds log = .ok found ∧ w₁.files = w.files ∧
      (openLog input).run w₁ = (.ok log, w₂) ∧
      (Work.change (·.without log.textFile)).run w₂ = (.ok (), w₃) ∧
      (Work.change (·.without log.recordFile)).run w₃ = (.ok (), w₄) ∧
      (log.logDiagnostics (ds.map Loose.Diagnostic.toJson)).run w₄ = (.ok n, w') := by
  rw [computeFrom] at h
  obtain ⟨config, w₁, hconfig, hrest⟩ := Work.run_bind_eq_ok_iff.1 h
  obtain ⟨hvalues, rfl⟩ := Work.run_ofAttempt_eq_ok_iff.1 hconfig
  obtain ⟨⟨results, ds⟩, hpasses, hrest⟩ := Work.run_ofOutcome_bind_eq_ok_iff.1 hrest
  obtain ⟨log, w₃, hopen, hrest⟩ := Work.run_bind_eq_ok_iff.1 hrest
  obtain ⟨_, w₄, htext, hrest⟩ := Work.run_bind_eq_ok_iff.1 hrest
  obtain ⟨_, w₅, hrecord, hrest⟩ := Work.run_bind_eq_ok_iff.1 hrest
  obtain ⟨n, w₆, hlogged, hrest⟩ := Work.run_bind_eq_ok_iff.1 hrest
  obtain ⟨hfound, rfl⟩ := Work.run_ofOutcome_eq_ok_iff.1 hrest
  exact ⟨config, results, ds, log, { w with log := w.log ++ _ }, w₃, w₄, w₅, n, hvalues,
    hpasses, hfound, rfl, hopen, htext, hrecord, hlogged⟩

/-- **What the second stage finds are the results of the passes** over the earlier outputs. -/
theorem Reconcile.exists_runPasses {pagesPath catalogPath : Path} {documented canonical : Json}
    (hpages : input.dependencies.lookup "pv_directives" = some pagesPath)
    (hcatalog : input.dependencies.lookup "pv_canonical" = some catalogPath)
    (hdocumented : Kernel.loadData w.files pagesPath = .ok documented)
    (hcanonical : Kernel.loadData w.files catalogPath = .ok canonical)
    (h : (compute input).run w = (.ok found, w')) :
    ∃ config results ds log,
      (ValuesConfig.ofJson (setting input.config "values")).run.1 = .ok config ∧
      runPasses config (setting input.config "variant") canonical documented = .ok (results, ds) ∧
      findings results ds log = .ok found := by
  rw [compute, Work.run_bind_of_eq_ok (run_dependency hpages hdocumented),
    Work.run_bind_of_eq_ok (run_dependency hcatalog hcanonical)] at h
  obtain ⟨config, results, ds, log, _, _, _, _, _, hvalues, hpasses, hfound, -⟩ :=
    exists_of_run_computeFrom h
  exact ⟨config, results, ds, log, hvalues, hpasses, hfound⟩

/-! ## Output files -/

theorem outputPath_eq {k : Kernel} (folder name : String)
    (hfolder : Path.ofString ("stage" ++ toString k.stage) = ⟨.here, [folder]⟩)
    (hname : Path.ofString (k.name ++ ".json") = ⟨.here, [name]⟩) (workspace : Path) :
    k.outputPath workspace = ⟨workspace.start, workspace.parts ++ [folder] ++ [name]⟩ := by
  change (workspace.join (.ofString _)).join (.ofString _) = _
  rw [hfolder, hname]
  rfl

theorem goesInto_of_eq {out : KernelOutput} {start : PathStart} {parts : List String}
    {name summaryName : String} (h : out.outputFile = ⟨start, parts ++ [name]⟩)
    (hsummary : String.ofList (Path.splitExtension name.toList).1 ++ ".summary.txt" = summaryName)
    (hname : name ≠ "..") (hsummaryName : summaryName ≠ "..") (hne : name ≠ summaryName) :
    Kernel.GoesInto out name summaryName where
  file := by rw [h, List.getLast?_append, List.getLast?_singleton]; rfl
  summaryFile := by
    rw [h, Path.withExtension, List.getLast?_append, List.getLast?_singleton, Path.stem, Path.name,
      List.getLast?_append, List.getLast?_singleton]
    exact congrArg some hsummary
  name_ne := hname
  summaryName_ne := hsummaryName
  ne := hne

theorem goesInto_directives {out : KernelOutput} {workspace : Path}
    (h : out.outputFile = directives.outputPath workspace) :
    Kernel.GoesInto out "pv_directives.json" "pv_directives.summary.txt" := by
  rw [outputPath_eq "stage1" "pv_directives.json" (by decide +kernel) (by decide +kernel)] at h
  exact goesInto_of_eq h (by decide +kernel) (by decide) (by decide) (by decide)

theorem goesInto_declarations {out : KernelOutput} {workspace : Path}
    (h : out.outputFile = declarations.outputPath workspace) :
    Kernel.GoesInto out "pv_canonical.json" "pv_canonical.summary.txt" := by
  rw [outputPath_eq "stage1" "pv_canonical.json" (by decide +kernel) (by decide +kernel)] at h
  exact goesInto_of_eq h (by decide +kernel) (by decide) (by decide) (by decide)

/-- **The second stage finds the data of both kernels of the first**, as they computed it. -/
theorem loadData_of_runs {workspace : Path} {config config' : Json.Fields} {now now' : String}
    {w₀ w₁ w₂ : World} {documented canonical : KernelOutput}
    (h₁ : (directives.run { workspace, config, now }).run w₀ = (.ok documented, w₁))
    (hsuccess₁ : documented.success = true) (hback₁ : documented.ReadsBack now)
    (h₂ : (declarations.run { workspace, config := config', now := now' }).run w₁ =
      (.ok canonical, w₂))
    (hsuccess₂ : canonical.success = true) (hback₂ : canonical.ReadsBack now') :
    Kernel.loadData w₂.files documented.outputFile = .ok documented.data ∧
      Kernel.loadData w₂.files canonical.outputFile = .ok canonical.data := by
  obtain ⟨_, _, _, _, hfile₁, hpersist₁⟩ := Kernel.exists_of_run h₁ hsuccess₁
  obtain ⟨_, _, hcompute₂, _, hfile₂, hpersist₂⟩ := Kernel.exists_of_run h₂ hsuccess₂
  obtain ⟨_, _, _, _, rfl⟩ := Declarations.exists_reads hcompute₂
  obtain ⟨place, _, hplace, hlast, -, hbytes, -⟩ :=
    Kernel.exists_of_persist (goesInto_directives hfile₁) hpersist₁
  obtain ⟨place', summaryPlace', -, hlast', hsummary', hbytes', hframe'⟩ :=
    Kernel.exists_of_persist (goesInto_declarations hfile₂) hpersist₂
  -- the second of them writes to no file of the first one
  have hother : place ∉ [place', summaryPlace'] := by
    rw [List.mem_pair]
    rintro (rfl | rfl)
    · exact absurd (hlast.symm.trans hlast') (by decide)
    · exact absurd (hlast.symm.trans hsummary') (by decide)
  have hkept := hframe'.readBytes hplace hother hbytes
  exact ⟨Kernel.loadData_eq hsuccess₁ hback₁ hkept, Kernel.loadData_eq hsuccess₂ hback₂ hbytes'⟩

/-- The second stage where it is given what the first one found, and reads nothing. -/
def reconcileFrom (documented canonical : Json) : Kernel :=
  { reconcile with compute := fun input => Reconcile.computeFrom input documented canonical }

end Kernels

/-! ## Both stages -/

/-- A run of the three kernels one after another in one workspace, which succeed; the last one is
given the outputs of the first two. -/
structure StagedRun where
  workspace : Path
  config : Json.Fields
  /-- The times of the runs. -/
  now₁ : String
  now₂ : String
  now₃ : String
  /-- The states before, between and after the runs. -/
  w₀ : World
  w₁ : World
  w₂ : World
  w₃ : World
  documented : KernelOutput
  canonical : KernelOutput
  reconciled : KernelOutput
  runs₁ : (directives.run { workspace, config, now := now₁ }).run w₀ = (.ok documented, w₁)
  runs₂ : (declarations.run { workspace, config, now := now₂ }).run w₁ = (.ok canonical, w₂)
  runs₃ : (reconcile.run { workspace, config, now := now₃, dependencies :=
    [("pv_directives", documented.outputFile), ("pv_canonical", canonical.outputFile)] }).run w₂ =
      (.ok reconciled, w₃)
  succeeds₁ : documented.success = true
  succeeds₂ : canonical.success = true
  succeeds₃ : reconciled.success = true

namespace StagedRun

/-- Whether the second stage can read what the first has written. -/
structure IsLegible (s : StagedRun) : Prop where
  documented : s.documented.ReadsBack s.now₁
  canonical : s.canonical.ReadsBack s.now₂

/-- Whether the stages read these pages and this catalog under a configuration. -/
structure Reads (s : StagedRun) (config : ValuesConfig) (pages : List ScannedPage)
    (catalog : Catalog) (declared : List (List DeclaredValue)) : Prop where
  pages : Directives.Reads s.config s.w₀.files config pages
  catalog : Declarations.Reads s.config s.w₁.files catalog declared

/-- The first stage leaves a catalog as it is, unless the file has the name of an output. -/
theorem load_eq (S : StagedRun) {p : Path} {name : String} (hlast : p.parts.getLast? = some name)
    (hname : name ∉ ["..", "pv_directives.json", "pv_directives.summary.txt"]) {catalog : Catalog}
    (h : Catalog.load S.w₀.files p = .ok catalog) : Catalog.load S.w₁.files p = .ok catalog := by
  simp only [List.mem_cons, List.not_mem_nil, or_false, not_or] at hname
  obtain ⟨_, _, hcompute, _, hfile, hpersist⟩ := Kernel.exists_of_run S.runs₁ S.succeeds₁
  obtain ⟨_, _, _, _, hfiles⟩ := Directives.exists_reads hcompute
  obtain ⟨place', summaryPlace, -, hout, hsummary, -, hframe⟩ :=
    Kernel.exists_of_persist (goesInto_directives hfile) hpersist
  rw [hfiles] at hframe
  obtain ⟨tree, htree, hcatalog⟩ := Outcome.bind_eq_ok_iff.1 h
  have hbytes : S.w₁.files.readBytes p = S.w₀.files.readBytes p := by
    cases hread : S.w₀.files.readBytes p with
    | error fault =>
      rw [FileTree.readJson, FileTree.readText, hread] at htree
      cases htree
    | ok bytes =>
      obtain ⟨place, hplace, _⟩ := FileTree.readBytes_eq_ok_iff.1 hread
      have hplaceLast := FileTree.getLast?_of_locate hlast hname.1 hplace
      refine hframe.readBytes hplace (fun hmem => ?_) hread
      rcases List.mem_pair.1 hmem with rfl | rfl
      · exact hname.2.1 (Option.some.inj (hplaceLast.symm.trans hout))
      · exact hname.2.2 (Option.some.inj (hplaceLast.symm.trans hsummary))
  rw [Catalog.load, FileTree.readJson, FileTree.readText, hbytes]
  exact h

/-- Whether the kernels succeed in turn, with data of the first two that can be read back. -/
def succeeds (workspace : Path) (config : Json.Fields) (w : World) : Bool :=
  match directives.success? { workspace, config } w with
  | none => false
  | some (documented, w₁) =>
    match declarations.success? { workspace, config } w₁ with
    | none => false
    | some (canonical, w₂) =>
      decide documented.data.IsOrdinary && decide canonical.data.IsOrdinary &&
        ((reconcileFrom documented.data canonical.data).success?
          { workspace, config, dependencies :=
            [("pv_directives", documented.outputFile), ("pv_canonical", canonical.outputFile)] }
          w₂).isSome

/-- Stages that succeed so make up a run. -/
theorem exists_of_succeeds (workspace : Path) {config : Json.Fields} {w : World}
    (h : succeeds workspace config w = true) :
    ∃ S : StagedRun, S.config = config ∧ S.w₀ = w ∧ S.IsLegible := by
  rw [succeeds] at h
  split at h
  · cases h
  · next documented w₁ h₁ =>
    split at h
    · cases h
    · next canonical w₂ h₂ =>
      obtain ⟨hordinary, h₃⟩ := Bool.and_eq_true_iff.1 h
      obtain ⟨hordinary₁, hordinary₂⟩ := Bool.and_eq_true_iff.1 hordinary
      have hback₁ := KernelOutput.readsBack_of_isOrdinary (of_decide_eq_true hordinary₁) ""
      have hback₂ := KernelOutput.readsBack_of_isOrdinary (of_decide_eq_true hordinary₂) ""
      obtain ⟨runs₁, succeeds₁⟩ := Kernel.success?_eq_some_iff.1 h₁
      obtain ⟨runs₂, succeeds₂⟩ := Kernel.success?_eq_some_iff.1 h₂
      obtain ⟨⟨reconciled, w₃⟩, h₃⟩ := Option.isSome_iff_exists.1 h₃
      obtain ⟨runs₃, succeeds₃⟩ := Kernel.success?_eq_some_iff.1 h₃
      obtain ⟨hloaded₁, hloaded₂⟩ := loadData_of_runs runs₁ succeeds₁ hback₁ runs₂ succeeds₂ hback₂
      refine ⟨⟨workspace, config, "", "", "", w, w₁, w₂, w₃, documented, canonical, reconciled,
        runs₁, runs₂, (Kernel.run_congr ?_).trans runs₃, succeeds₁, succeeds₂, succeeds₃⟩, rfl, rfl,
        ⟨hback₁, hback₂⟩⟩
      change (Reconcile.compute _).run w₂ = _
      rw [Reconcile.compute, Work.run_bind_of_eq_ok (Reconcile.run_dependency rfl hloaded₁),
        Work.run_bind_of_eq_ok (Reconcile.run_dependency rfl hloaded₂)]

/-- Stages that succeed have read some pages and a catalog. -/
theorem exists_reads (s : StagedRun) :
    ∃ config pages catalog declared, s.Reads config pages catalog declared := by
  obtain ⟨_, _, hcompute₁, _⟩ := Kernel.exists_of_run s.runs₁ s.succeeds₁
  obtain ⟨_, _, hcompute₂, _⟩ := Kernel.exists_of_run s.runs₂ s.succeeds₂
  obtain ⟨config, pages, hpages, _⟩ := Directives.exists_reads hcompute₁
  obtain ⟨catalog, declared, hcatalog, _⟩ := Declarations.exists_reads hcompute₂
  exact ⟨config, pages, catalog, declared, hpages, hcatalog⟩

/-- **Stages that succeed in turn have run the passes** over the pages and the catalog that they
read. -/
theorem exists_passes (s : StagedRun) (hlegible : s.IsLegible) {config : ValuesConfig}
    {pages : List ScannedPage} {catalog : Catalog} {declared : List (List DeclaredValue)}
    (h : s.Reads config pages catalog declared) :
    ∃ found results ds log found', Directives.findings pages = .ok found ∧
      Reconcile.runPasses config (setting s.config "variant")
        (Declarations.findings catalog declared).data found.data = .ok (results, ds) ∧
      Reconcile.findings results ds log = .ok found' ∧ s.reconciled.data = found'.data := by
  obtain ⟨found₁, v₁, hcompute₁, hdata₁, -⟩ := Kernel.exists_of_run s.runs₁ s.succeeds₁
  obtain ⟨found₂, v₂, hcompute₂, hdata₂, -⟩ := Kernel.exists_of_run s.runs₂ s.succeeds₂
  obtain ⟨found₃, v₃, hcompute₃, hdata₃, -⟩ := Kernel.exists_of_run s.runs₃ s.succeeds₃
  obtain ⟨config', pages', hpages', hfound₁, hfiles₁⟩ := Directives.exists_reads hcompute₁
  obtain ⟨catalog', declared', hcatalog', hfound₂, rfl⟩ := Declarations.exists_reads hcompute₂
  obtain ⟨hloaded₁, hloaded₂⟩ := loadData_of_runs s.runs₁ s.succeeds₁ hlegible.documented s.runs₂
    s.succeeds₂ hlegible.canonical
  obtain ⟨config'', results, ds, log, hvalues, hpasses, hfound₃⟩ :=
    Reconcile.exists_runPasses rfl rfl hloaded₁ hloaded₂ hcompute₃
  obtain ⟨rfl, rfl⟩ := h.pages.unique hpages'
  obtain ⟨rfl, rfl⟩ := h.catalog.unique hcatalog'
  obtain rfl : config'' = config := Except.ok.inj (hvalues.symm.trans h.pages.values)
  rw [hdata₁, hdata₂, hfound₂] at hpasses
  exact ⟨found₁, results, ds, log, found₃, hfound₁, hpasses, hfound₃, hdata₃⟩

/-! ## A run -/

/-- The files of a page and a catalog, beside an empty workspace. -/
def filesOf (page catalog : String) : World where
  files :=
    { cwd := []
      nodes := [(["ws"], .directory), (["page.md"], .file (Text.Utf8.encode page.toList)),
        (["catalog.json"], .file (Text.Utf8.encode catalog.toList))] }

/-- A check of this page with this catalog, under the settings that are given by default. -/
def checkConfig : Json.Fields :=
  [("pages", .arr [.obj [("path", .str "page.md"), ("variant", .null)]]),
    ("catalog", .str "catalog.json"), ("variant", .null),
    ("values", .obj [
      ("suggestion", .obj [("max_edit_distance", .int 2), ("tie_break", .str "none")]),
      ("matching", .obj [("case_sensitive", .bool true)]),
      ("directives", .obj [("block_keywords", .ofTexts ["PossibleValues", "Possible Values"]),
        ("inline_keywords", .ofTexts ["PossibleValue", "Possible Value"])]),
      ("max_workers", .int 4)]),
    ("logging", .obj [("level", .str "INFO"), ("log_dir", .str "stage2"),
      ("text_log", .str "diagnostics.log"), ("json_log", .str "diagnostics.jsonl")])]

/-- What a run of such a check reads. -/
theorem exists_reads_filesOf {S : StagedRun} (hconfig : S.config = checkConfig)
    {page catalogText : String} (hw₀ : S.w₀ = filesOf page catalogText) (catalog : Catalog)
    (hload : (Catalog.load (filesOf page catalogText).files (.ofString "catalog.json")).toOption =
      some catalog)
    (text : List Char)
    (htext : ((filesOf page catalogText).files.readText (.ofString "page.md")).toOption = some text)
    {title : String} (htitle : (Page.ofText text).title = some title) :
    ∃ config p declared, S.Reads config [p] catalog declared ∧ p.symbol = .str title := by
  obtain ⟨config, pages, catalog', declared, hreads⟩ := S.exists_reads
  obtain ⟨path, hpath, hload'⟩ := hreads.catalog.load
  obtain rfl : "catalog.json" = path := by
    rw [hconfig] at hpath
    exact Json.str.inj hpath
  have hlast : (Path.ofString "catalog.json").parts.getLast? = some "catalog.json" := by
    decide +kernel
  have hload := S.load_eq hlast (by decide) (hw₀ ▸ Outcome.eq_ok_of_toOption hload)
  obtain rfl := Except.ok.inj (hload.symm.trans hload')
  have hpages : setting S.config "pages" =
      .arr [.obj [("path", .str "page.md"), ("variant", .null)]] := by
    rw [hconfig]
    rfl
  obtain ⟨p, rfl, hsymbol, _⟩ :=
    hreads.pages.exists_page hpages (hw₀ ▸ Outcome.eq_ok_of_toOption htext) htitle
  exact ⟨config, p, declared, hreads, hsymbol⟩

/-- A page of a symbol that documents one value that is declared, and one that is not. -/
def kindPage : String := "# ``Kind``\n- PossibleValue Red: r\n- PossibleValue Rde: s"

/-- The symbol of this page, and another one. -/
def kindCatalog : String :=
  "\x7b\"symbols\": [\x7b\"title\": \"Kind\", \"cases\": [\"Red\"]\x7d, \x7b\"title\": \"Hue\"\x7d]\x7d"

/-- The symbol of the page, as it is read. -/
def kindSymbol : Symbol := ⟨.str "Kind", .str "//Kind", [("cases", .arr [.str "Red"])]⟩

/-- The catalog, as it is read. -/
def kindSymbols : Catalog where
  module := .str ""
  symbols := [kindSymbol, ⟨.str "Hue", .str "//Hue", []⟩]

/-- The kernels succeed in turn on this page. -/
theorem exists_kindRun : ∃ S : StagedRun, S.config = checkConfig ∧
    S.w₀ = filesOf kindPage kindCatalog ∧ S.IsLegible :=
  exists_of_succeeds (.ofString "ws") (by decide +kernel)

end StagedRun
end ValueDocs
