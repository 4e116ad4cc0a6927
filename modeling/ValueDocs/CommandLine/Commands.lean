import ValueDocs.CommandLine.Arguments
import ValueDocs.Config.Settings
import ValueDocs.Registry

/-!
# CommandLine/Commands — what the commands do

A check runs the stages one after another in a workspace and prints the diagnostics; a look at a
page runs one pass in memory and prints its render plan.  A command ends with a number: zero, one
when something is missing or a stage fails, two when a strict check finds a diagnostic.
-/

namespace ValueDocs.CommandLine

/-! ## Runs -/

/-- The state of a run of commands. -/
structure Session where
  world : World
  registry : Registry := {}

/-- A computation of a command. -/
abbrev Shell := ExceptT Failure (StateM Session)

/-- What a command finds around it. -/
structure Setting where
  environment : Environment
  /-- Whether printed text is coloured. -/
  colour : Bool := false
  now : String := ""

namespace Shell

/-- The outcome, and the state after it. -/
def run (s : Shell α) (session : Session) : Outcome α × Session :=
  StateT.run (ExceptT.run s) session

/-- Works in the world of the run. -/
def work (w : Work α) : Shell α :=
  ExceptT.mk fun session =>
    let (result, world) := w.run session.world
    (result, { session with world })

/-- The result of an outcome. -/
def ofOutcome (o : Outcome α) : Shell α := ExceptT.mk (pure o)

/-- The files as they are. -/
def files : Shell FileTree := work Work.files

/-- Prints a line. -/
def printLine (text : String) : Shell Unit := work (Work.printLine text)

/-- The registry with the built-in kernels. -/
def registry : Shell Registry := do
  let session ← get
  let r ← work (Work.ofAttempt (ExceptT.lift session.registry.ensure))
  modify fun session => { session with registry := r }
  return r

end Shell

namespace Setting

/-! ## Colours -/

/-- A text in a colour or weight. -/
def paint (s : Setting) (code text : String) : String :=
  if s.colour then "\x1b[" ++ code ++ "m" ++ text ++ "\x1b[0m" else text

/-- A text in bold. -/
def bold (s : Setting) : String → String := s.paint "1"

/-- A text in faint letters. -/
def dim (s : Setting) : String → String := s.paint "2"

/-- A text in red. -/
def red (s : Setting) : String → String := s.paint "31"

/-- A text in green. -/
def green (s : Setting) : String → String := s.paint "32"

/-- A text in yellow. -/
def yellow (s : Setting) : String → String := s.paint "33"

/-- A text in cyan. -/
def cyan (s : Setting) : String → String := s.paint "36"

end Setting

/-! ## Inputs -/

/-- The path of a catalog, which may not be blank. -/
def catalogPath (catalog : OptionValue) : Outcome Path :=
  match catalog with
  | .text s => .ok (.ofString s)
  | .blank => .error .wrongType

/-- The paths among pages and a catalog where no file is. -/
def missingFiles (files : FileTree) (pages : List Path) (catalog : Path) : Outcome (List Path) :=
  (pages ++ [catalog]).filterM fun p => do return !(← files.isFile p)

/-- Prints the paths where a file is missing. -/
def printMissing (s : Setting) (missing : List Path) : Shell Unit :=
  missing.forM fun p => Shell.printLine (s.red ("Error: File not found: " ++ p.toString))

/-- The settings of a command. -/
def loadSettings (s : Setting) (config : Option String) : Shell Settings := do
  let files ← Shell.files
  Shell.work (Work.ofAttempt
    (Settings.load files s.environment ((config.filter (· ≠ "")).map Path.ofString)))

/-- The workspace of a check: the one asked for, or one beside the first page, which there must be,
that is named after it and a digest of all input. -/
def workspaceFor (files : FileTree) (pages : List Path) (catalog : Path)
    (asked : Option String) : Outcome Path := do
  match asked.filter (· ≠ "") with
  | some w => return .ofString w
  | none =>
    let inputs := pages.mergeSort Path.le ++ [catalog]
    let contents ← inputs.mapM fun p => do
      let bytes ← FileTree.outcomeAt p (files.readBytes p)
      return Text.Utf8.encode p.toString.toList ++ bytes
    let digest := (Sha256.hexDigest contents.flatten).toList.take 12
    match pages with
    | [] => throw .noLine
    | page :: _ => return page.parent / ".docval" / (page.stem ++ "_" ++ String.ofList digest)

/-- The outputs of earlier stages that a kernel requires. -/
def discoverDependencies (files : FileTree) (requires : List String) (workspace : Path) :
    Outcome (List (String × Path)) :=
  (Metadata.distinct requires).filterMapM fun name => do
    let places := ["stage1", "stage2"].map fun stage => workspace / stage / (name ++ ".json")
    return (← places.findM? files.pathExists).map (name, ·)

/-! ## Diagnostics -/

/-- The lines that show a fix, which has one at least. -/
def fixLines (s : Setting) (solution : Json) : Outcome (List String) := do
  match ← solution.field "summary" with
  | .str summary =>
    match (Text.lines (Text.trimEndBy (· == '\n') summary.toList)).map String.ofList with
    | [] => throw .noLine
    | first :: later =>
      return ("    " ++ s.cyan "fix:" ++ " " ++ first) ::
        later.map fun line => if line.isEmpty then "" else "         " ++ line
  | _ => throw .noMember

/-- The lines that show a diagnostic with its fixes. -/
def diagnosticLines (s : Setting) (d : Json) : Outcome (List String) := do
  let severity ← d.get "severity" (.str "warning")
  let tag := if severity == .str "warning" then s.yellow "warning" else s.dim severity.display
  let place ← DiagnosticLog.placeOf d
  let summary ← d.field "summary"
  let identifier ← (← d.field "identifier").text
  let fixes ← (← d.get "solutions" (.arr [])).mapElements (fixLines s)
  return (place ++ ": " ++ tag ++ ": " ++ summary.display ++ " " ++
    s.dim ("[" ++ identifier ++ "]")) :: fixes.flatten

/-- Prints diagnostics. -/
def printDiagnostics (s : Setting) (ds : List Json) : Shell Unit :=
  ds.forM fun d => do (← Shell.ofOutcome (diagnosticLines s d)).forM Shell.printLine

/-! ## Check -/

/-- Runs a kernel and prints how it went. -/
def runKernel (s : Setting) (verbose : Bool) (k : Kernel) (workspace : Path)
    (config : Json.Fields) : Shell KernelOutput := do
  Shell.work (Work.print ("  [" ++ s.cyan k.name ++ "] "))
  let files ← Shell.files
  let dependencies ← Shell.ofOutcome (discoverDependencies files k.requires workspace)
  let out ← Shell.work (k.run { workspace, config, dependencies, now := s.now })
  if out.success then
    Shell.printLine (s.green (if out.summary.isEmpty then "done" else out.summary))
  else
    let errors := if out.errors.isEmpty then "unknown error" else "; ".intercalate out.errors
    Shell.printLine (s.red ("FAILED: " ++ errors))
    if verbose then out.errors.forM fun e => Shell.printLine ("    " ++ s.dim e)
  return out

/-- Runs kernels one after another until one fails; the output of the last one, if none did. -/
def runStages (s : Setting) (verbose : Bool) (workspace : Path) (config : Json.Fields) :
    List Kernel → Shell (Option KernelOutput)
  | [] => return none
  | k :: ks => do
    let out ← runKernel s verbose k workspace config
    if !out.success then return none
    else if ks.isEmpty then return some out
    else runStages s verbose workspace config ks

/-- The configuration of the stages of a check. -/
def stageConfig (request : CheckRequest) (settings : Settings) (pages : List Path)
    (catalog : Path) : Outcome Json.Fields := do
  let variant := (request.variant.map OptionValue.toJson).getD .null
  let page := fun p : Path => Json.obj [("path", .str p.toString), ("variant", variant)]
  return [("pages", .arr (pages.map page)), ("catalog", .str catalog.toString),
    ("variant", variant), ("values", ← settings.values.toJson),
    ("logging", settings.logging.toJson)]

/-- Prints what a check found. -/
def printFindings (s : Setting) (request : CheckRequest) (data diagnostics : Json) :
    Shell Unit := do
  if request.json then Shell.printLine data.sorted.pretty
  else
    Shell.printLine ""
    if !diagnostics.truthy then Shell.printLine (s.green "No diagnostics.")
    else
      let ds ← Shell.ofOutcome diagnostics.elements
      printDiagnostics s ds
      Shell.printLine ("\n" ++ s.yellow (toString ds.length ++ " diagnostic(s)"))

/-- Checks pages against a catalog. -/
def check (s : Setting) (verbose : Bool) (config : Option String) (request : CheckRequest) :
    Shell Nat := do
  let files ← Shell.files
  let pages ← Shell.ofOutcome (request.pages.mapM fun p => files.resolve (.ofString p))
  let catalog ← Shell.ofOutcome do files.resolve (← catalogPath request.catalog)
  let missing ← Shell.ofOutcome (missingFiles files pages catalog)
  if !missing.isEmpty then
    printMissing s missing
    return 1
  let settings ← loadSettings s config
  let workspace ← Shell.ofOutcome (workspaceFor files pages catalog request.workspace)
  Shell.work (Work.change (·.withDirectories workspace))
  let config ← Shell.ofOutcome (stageConfig request settings pages catalog)
  if !request.json then
    Shell.printLine (s.bold ("docval possible values — " ++ toString pages.length ++ " page(s)"))
    Shell.printLine ("Workspace: " ++ s.dim workspace.toString)
    Shell.printLine ""
  let registry ← Shell.registry
  let stages ← Shell.ofOutcome do
    (← registry.resolve ["pv_reconcile"]).mapM registry.get
  match ← runStages s verbose workspace config stages with
  | none => return 1
  | some out =>
    let diagnostics ← Shell.ofOutcome (out.data.get "diagnostics" (.arr []))
    printFindings s request out.data diagnostics
    return if request.strict && diagnostics.truthy then 2 else 0

/-! ## Show -/

/-- The pass over one page.  A blank variant is none to scan for, and cannot be rendered. -/
def pagePass (request : ShowRequest) (settings : Settings) (catalog : Catalog) (symbol : Symbol)
    (page : Page) : Outcome Loose.PassResult := do
  let body := String.ofList page.body
  let variant := (request.variant.bind OptionValue.text?).filter (· ≠ "")
  let declared ← symbol.declaredValues
  Loose.Pass.run {
    symbol := symbol.title
    documentation := .pages (match variant with
      | some tag => .variants [(some tag, body)]
      | none => .body body)
    declared := .source (.values declared)
    resolver := some catalog.resolver
    contextPath := some symbol.pathText
    source := some (Path.ofString request.page).toString
    lineOffset := page.offset
    variant := (request.variant.map OptionValue.toJson).getD .null
    config := settings.values }

/-- Prints the result of a pass. -/
def printResult (s : Setting) (symbol : Symbol) (result : Loose.PassResult) : Shell Unit := do
  Shell.printLine (s.bold (symbol.title.display ++ " " ++ s.dim symbol.pathText))
  Shell.printLine (← Shell.ofOutcome result.plan.preview)
  if !result.diagnostics.isEmpty then
    Shell.printLine ""
    printDiagnostics s (result.diagnostics.map Loose.Diagnostic.toJson)

/-- Shows the render plan of one page. -/
def showPage (s : Setting) (config : Option String) (request : ShowRequest) : Shell Nat := do
  let files ← Shell.files
  let path := Path.ofString request.page
  let catalogPath ← Shell.ofOutcome (catalogPath request.catalog)
  let missing ← Shell.ofOutcome (missingFiles files [path] catalogPath)
  if !missing.isEmpty then
    printMissing s missing
    return 1
  let settings ← loadSettings s config
  let catalog ← Shell.ofOutcome (Catalog.load files catalogPath)
  let page := Page.ofText (← Shell.ofOutcome (files.readText path))
  let name := request.symbol.filter (· ≠ "") <|> page.title
  match ← Shell.ofOutcome (catalog.find (.str (name.getD ""))) with
  | none =>
    Shell.printLine (s.red ("Error: symbol '" ++ (Json.ofText? name).display ++
      "' not found in " ++ catalogPath.toString))
    return 1
  | some symbol =>
    let result ← Shell.ofOutcome (pagePass request settings catalog symbol page)
    if request.json then Shell.printLine (← Shell.ofOutcome result.tree).sorted.pretty
    else printResult s symbol result
    return 0

/-! ## Kernels -/

/-- A text padded with blanks on the right. -/
def padRight (width : Nat) (text : String) : String :=
  text ++ String.ofList (List.replicate (width - text.length) ' ')

/-- The line of a kernel in a list. -/
def kernelLine (k : Kernel) : String :=
  let requires := ", ".intercalate k.requires
  padRight 16 k.name ++ " " ++ padRight 6 (toString k.stage) ++ " " ++
    padRight 28 (if requires.isEmpty then "-" else requires) ++ " " ++ k.description

/-- Lists the kernels, perhaps of one category. -/
def listKernels (s : Setting) (category : Option String) : Shell Nat := do
  let registry ← Shell.registry
  let names ← Shell.ofOutcome (registry.list category .null)
  Shell.printLine (padRight 16 "Kernel" ++ " " ++ padRight 6 "Stage" ++ " " ++
    padRight 28 "Requires" ++ " Description")
  Shell.printLine (String.ofList (List.replicate 80 '-'))
  names.forM fun name => do
    Shell.printLine (kernelLine (← Shell.ofOutcome (registry.get name)))
  Shell.printLine ("\n" ++ s.dim (toString names.length ++ " kernel(s)"))
  return 0

/-! ## All commands -/

/-- Carries out a command, and yields the number it ends with. -/
def perform (s : Setting) (invocation : Invocation) (command : Command) : Shell Nat :=
  match command with
  | .check request => check s invocation.verbose invocation.config request
  | .show request => showPage s invocation.config request
  | .kernels category => listKernels s category

end ValueDocs.CommandLine
