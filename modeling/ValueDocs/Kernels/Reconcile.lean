import ValueDocs.DiagnosticLog
import ValueDocs.Kernel
import ValueDocs.Loose.Pass
import ValueDocs.Text.CaseMap.Upper

/-!
# Kernels/Reconcile — documented values against declared ones

The second stage runs one pass for each documented symbol, over the values of all its pages, and
logs the diagnostics of all passes afresh.  What pages document and symbols declare is read back
from earlier outputs, where it may be anything; symbols whose titles are equal count as one.
-/

namespace ValueDocs.Kernels
namespace Reconcile

/-! ## Earlier outputs -/

/-- The symbol in an earlier output. -/
def symbolOf (j : Json) : Outcome Symbol := do
  let title ← j.field "title"
  let path ← j.field "path"
  let metadata := match ← j.get "metadata" (.obj []) with
    | .obj fields => fields
    | _ => []
  return ⟨title, path, metadata⟩

/-- The catalog in an earlier output. -/
def catalogOf (data : Json) : Outcome Catalog := do
  let module ← data.get "module" (.str "")
  let symbols ← (← data.get "symbols" (.arr [])).mapElements symbolOf
  let articles ← (← data.get "articles" (.arr [])).elements
  return ⟨module, symbols, articles⟩

/-- The declared values in an earlier output, by the title of the symbol. -/
def declaredOf (data : Json) : Outcome (List (Json × List Loose.DeclaredValue)) := do
  (← data.get "symbols" (.arr [])).mapElements fun s => do
    let title ← s.field "title"
    let values ← (← s.get "canonical" (.arr [])).mapElements Loose.DeclaredValue.ofJson
    return (← title.keptBy, values)

/-- The values of the last symbol with a title. -/
def lastWith (title : Json) (declared : List (Json × List Loose.DeclaredValue)) :
    List Loose.DeclaredValue :=
  ((declared.reverse.find? fun d => d.1.equal title).map (·.2)).getD []

/-! ## Passes -/

/-- A symbol with the values that its pages document. -/
structure Job where
  symbol : Symbol
  values : List Loose.DocumentedValue
  deriving Inhabited

/-- The jobs with more values of a symbol, which join those that there are. -/
def addPage (symbol : Symbol) (values : List Loose.DocumentedValue) : List Job → List Job
  | [] => [⟨symbol, values⟩]
  | job :: rest =>
    if job.symbol.title.equal symbol.title then { job with values := job.values ++ values } :: rest
    else job :: addPage symbol values rest

/-- The symbol that a page in an earlier output documents. -/
def symbolOfPage (catalog : Catalog) (page : Json) : Outcome Symbol := do
  let name ← page.field "symbol"
  match ← catalog.find name with
  | some symbol => return symbol
  | none => throw (.symbolNotListed name.display (← page.field "path").display)

/-- The values that a page in an earlier output documents. -/
def valuesOfPage (page : Json) : Outcome (List Loose.DocumentedValue) := do
  (← page.get "entries" (.arr [])).mapElements Loose.DocumentedValue.ofJson

/-- The jobs with another page in an earlier output; the first page of a symbol must have a path. -/
def addJob (catalog : Catalog) (jobs : List Job) (page : Json) : Outcome (List Job) := do
  let symbol ← symbolOfPage catalog page
  let values ← valuesOfPage page
  if !jobs.any (·.symbol.title.equal symbol.title) then
    let _ ← page.field "path"
  return addPage symbol values jobs

/-- The jobs for some pages in an earlier output. -/
def jobsOf (catalog : Catalog) (pages : List Json) : Outcome (List Job) :=
  pages.foldlM (addJob catalog) []

/-- The pass that carries out a job, with what its symbol declares. -/
def passOver (config : ValuesConfig) (variant : Json) (catalog : Catalog)
    (declared : List Loose.DeclaredValue) (job : Job) : Loose.PassInput where
  symbol := job.symbol.title
  documentation := .values job.values
  declared := .values declared
  resolver := some catalog.resolver
  contextPath := some job.symbol.pathText
  variant := variant
  config := config

/-- The passes over the pages in an earlier output, and the diagnostics of all. -/
def runPasses (config : ValuesConfig) (variant : Json) (canonical documented : Json) :
    Outcome (List Loose.PassResult × List Loose.Diagnostic) := do
  let catalog ← catalogOf canonical
  let declared ← declaredOf canonical
  let pages ← (← documented.get "pages" (.arr [])).elements
  let jobs ← jobsOf catalog pages
  let (results, engine) ← Loose.Pass.runAll (jobs.map fun job =>
    passOver config variant catalog (lastWith job.symbol.title declared) job) {}
  return (results, ← engine.drain)

/-! ## The log -/

/-- The log that a configuration asks for. -/
def openLog (input : KernelInput) : Work DiagnosticLog := do
  let given := (input.config.lookup "logging").getD .null
  let given := if given.truthy then given else .obj []
  let directory ← Work.ofOutcome (given.get "log_dir" .null)
  let directory ← if directory.truthy then Work.ofOutcome directory.text else pure "stage2"
  let level ← Work.ofOutcome (given.get "level" (.str "INFO"))
  let level := Level.ofName? (String.ofList (Text.CaseMap.upper level.display.toList))
  let textName ← Work.ofOutcome (given.get "text_log" (.str "diagnostics.log"))
  let recordName ← Work.ofOutcome (given.get "json_log" (.str "diagnostics.jsonl"))
  let directory := input.workspace / directory
  Work.change (·.withDirectories directory)
  DiagnosticLog.create directory (level.getD .info) (← Work.ofOutcome textName.text)
    (← Work.ofOutcome recordName.text) input.now

/-! ## Findings -/

/-- The number of diagnostics of each kind, in the order the kinds come up. -/
def countKinds (ds : List Loose.Diagnostic) : List (String × Nat) :=
  let names := ds.map (·.kind.name)
  (Metadata.distinct names).map fun name => (name, names.count name)

/-- The line that tells of some results. -/
def summary (results : List Loose.PassResult) (ds : List Loose.Diagnostic) : String :=
  let modes := results.map fun r => r.symbol.display ++ "=" ++ r.plan.mode.name
  let parts := ((countKinds ds).mergeSort fun a b => decide (a.1 ≤ b.1)).map fun (name, n) =>
    toString n ++ " " ++ name
  "Possible values: " ++ toString results.length ++ " symbol(s) [" ++ ", ".intercalate modes ++
    "]. Diagnostics: " ++ toString ds.length ++
    (if parts.isEmpty then "" else " (" ++ ", ".intercalate parts ++ ")")

/-- What is found by some passes whose diagnostics are in a log. -/
def findings (results : List Loose.PassResult) (ds : List Loose.Diagnostic) (log : DiagnosticLog) :
    Outcome Findings := do
  let symbols ← results.mapM Loose.PassResult.tree
  return {
    data := .obj [("symbols", .arr symbols),
      ("diagnostics", .arr (ds.map Loose.Diagnostic.toJson)), ("total_symbols", .int results.length),
      ("total_diagnostics", .int ds.length),
      ("by_kind", .obj ((countKinds ds).map fun (name, n) => (name, .int n))),
      ("diagnostics_file", .str log.recordFile.toString)]
    summary := summary results ds }

/-- Reads an earlier output. -/
def dependency (input : KernelInput) (name : String) : Work Json := do
  let files ← Work.files
  Work.ofOutcome do
    match input.dependencies.lookup name with
    | some path => Kernel.loadData files path
    | none => throw (.missingKey name)

/-- Runs the passes over what pages document and symbols declare, and logs their diagnostics. -/
def computeFrom (input : KernelInput) (documented canonical : Json) : Work Findings := do
  let config ← Work.ofAttempt (ValuesConfig.ofJson ((input.config.lookup "values").getD .null))
  let variant := (input.config.lookup "variant").getD .null
  let (results, ds) ← Work.ofOutcome (runPasses config variant canonical documented)
  let log ← openLog input
  Work.change (·.without log.textFile)
  Work.change (·.without log.recordFile)
  let _ ← log.logDiagnostics (ds.map Loose.Diagnostic.toJson)
  Work.ofOutcome (findings results ds log)

/-- Runs the passes over earlier outputs. -/
def compute (input : KernelInput) : Work Findings := do
  let documented ← dependency input "pv_directives"
  let canonical ← dependency input "pv_canonical"
  computeFrom input documented canonical

end Reconcile

/-- The stage that reconciles. -/
def reconcile : Kernel where
  name := "pv_reconcile"
  category := "values"
  stage := 2
  description := "Reconcile documented and declared possible values"
  requires := ["pv_directives", "pv_canonical"]
  provides := ["reconciled_values", "possible_values_diagnostics", "render_plans"]
  origin := .builtIn
  compute := Reconcile.compute

end ValueDocs.Kernels
