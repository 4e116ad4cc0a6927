import ValueDocs.Json.Print
import ValueDocs.Json.Decode
import ValueDocs.Sha256
import ValueDocs.World

/-!
# Kernel — one stage of a check

A kernel computes data from files and earlier outputs, and tells of it in a line or two.  Running
one validates its input, recovers from what can go wrong in the computation, and leaves the data, or
the failure, in a file of its stage where later kernels find it.
-/

namespace ValueDocs

/-- What a kernel is given. -/
structure KernelInput where
  workspace : Path
  config : Json.Fields
  /-- The output files of the kernels it requires, by name. -/
  dependencies : List (String × Path) := []
  /-- The time of the run. -/
  now : String := ""

/-- Where a kernel comes from: one from outside the library is the same only as itself. -/
inductive Origin where
  | builtIn
  | external (identity : Nat)
  deriving DecidableEq, Repr

/-- What a computation finds: the data, and a line or two that tell of it. -/
structure Findings where
  data : Json
  summary : String
  deriving Inhabited

/-- One stage of a check. -/
structure Kernel where
  name : String
  version : String := "1.0.0"
  category : String := "base"
  stage : Int := 0
  description : String := "Base kernel"
  /-- The kernels whose outputs it reads. -/
  requires : List String := []
  provides : List String := []
  origin : Origin := .external 0
  /-- What it checks of its input, if not what all kernels do. -/
  ownCheck : Option (FileTree → KernelInput → Outcome (List String)) := none
  compute : KernelInput → Work Findings

/-- What a run of a kernel yields. -/
structure KernelOutput where
  success : Bool
  data : Json
  summary : String
  outputFile : Path
  kernelName : String
  kernelVersion : String
  inputHash : String
  dependenciesUsed : List String
  warnings : List String := []
  errors : List String := []

namespace Kernel

/-- The number of characters a summary may have. -/
def summaryLimit : Nat := 500

/-- The name and version of a kernel. -/
def label (k : Kernel) : String := k.name ++ "@" ++ k.version

/-- The module that defines a kernel. -/
def module (k : Kernel) : String :=
  match k.origin with
  | .builtIn => "docval_kernels.values.kernels." ++ k.name
  | .external _ => "external"

/-- What a kernel is, in a line. -/
def describe (k : Kernel) : String :=
  "<Kernel " ++ k.label ++ " stage=" ++ toString k.stage ++ ">"

/-- What a kernel is, as a data tree. -/
def info (k : Kernel) : Json :=
  .obj [("name", .str k.name), ("version", .str k.version), ("category", .str k.category),
    ("stage", .int k.stage), ("description", .str k.description),
    ("requires", .ofTexts k.requires), ("provides", .ofTexts k.provides),
    ("module", .str k.module)]

/-- The file a kernel leaves its data in. -/
def outputPath (k : Kernel) (workspace : Path) : Path :=
  workspace / ("stage" ++ toString k.stage) / (k.name ++ ".json")

/-- The problems that kernels look for: there is no workspace, or an output that is required is
missing. -/
def commonProblems (k : Kernel) (files : FileTree) (input : KernelInput) :
    Outcome (List String) := do
  let workspace :=
    if ← files.pathExists input.workspace then []
    else ["Workspace does not exist: " ++ input.workspace.toString]
  let missing ← k.requires.filterMapM fun name => do
    match input.dependencies.lookup name with
    | none => return some ("Missing required dependency: " ++ name)
    | some p =>
      if ← files.pathExists p then return none
      else return some ("Dependency file does not exist: " ++ p.toString)
  return workspace ++ missing

/-- What keeps a kernel from running. -/
def validate (k : Kernel) (files : FileTree) (input : KernelInput) : Outcome (List String) :=
  (k.ownCheck.getD k.commonProblems) files input

/-- The digest of what a run depends on: the kernel, its settings and where its input is. -/
def inputHash (k : Kernel) (input : KernelInput) : String :=
  let content := Json.obj [("kernel", .str k.label), ("config", .obj input.config),
    ("dependencies", .obj (input.dependencies.map fun (name, p) => (name, .str p.toString)))]
  String.ofList
    ((Sha256.hexDigest (Text.Utf8.encode content.sorted.compact.toList)).toList.take 16)

/-- A summary cut to the limit. -/
def cutSummary (summary : String) : String × List String :=
  let s := summary.toList
  if summaryLimit < s.length then
    (String.ofList (s.take (summaryLimit - 3)) ++ "...",
      ["Summary truncated to " ++ toString summaryLimit ++ " characters"])
  else (summary, [])

/-- The output of a computation that failed. -/
def failedOutput (k : Kernel) (f : Failure) (outputFile : Path) : KernelOutput :=
  { success := false
    data := .obj [("error", .str f.report), ("error_type", .str f.kind.name)]
    summary := "Kernel " ++ k.name ++ " failed: " ++ String.ofList (f.report.toList.take 100)
    outputFile, kernelName := k.name, kernelVersion := k.version, inputHash := ""
    dependenciesUsed := [], errors := [f.report] }

/-- The output of an input that is not valid. -/
def invalidOutput (k : Kernel) (problems : List String) (outputFile : Path) : KernelOutput :=
  { success := false
    data := .obj [("validation_errors", .ofTexts problems)]
    summary := "Kernel " ++ k.name ++ " failed validation: " ++ problems.headD ""
    outputFile, kernelName := k.name, kernelVersion := k.version, inputHash := ""
    dependenciesUsed := [], errors := problems }

/-- The output of a computation that succeeded. -/
def soundOutput (k : Kernel) (found : Findings) (outputFile : Path) : KernelOutput :=
  let cut := cutSummary found.summary
  { success := true
    data := found.data
    summary := cut.1, outputFile, kernelName := k.name, kernelVersion := k.version, inputHash := ""
    dependenciesUsed := [], warnings := cut.2 }

/-- Computes; a failure a kernel recovers from becomes an output. -/
def attempt (k : Kernel) (input : KernelInput) (outputFile : Path) : Work KernelOutput := do
  match ← Work.observe (k.compute input) with
  | .ok found => return k.soundOutput found outputFile
  | .error f =>
    if !f.isRecoverable then throw f
    Work.tell ⟨.error, "[" ++ k.name ++ "] Computation failed: " ++ f.report⟩
    return k.failedOutput f outputFile

/-- The record a run leaves in its output file.  A run is at one instant, so it takes no time. -/
def outputRecord (out : KernelOutput) (now : String) : Json :=
  .obj [
    ("_meta", .obj [("kernel_name", .str out.kernelName),
      ("kernel_version", .str out.kernelVersion), ("execution_time_ms", .int 0),
      ("input_hash", .str out.inputHash), ("timestamp", .str now),
      ("success", .bool out.success)]),
    ("data", out.data)]

/-- Leaves an output and its summary in files. -/
def persist (out : KernelOutput) (now : String) : Work Unit := do
  Work.change (·.withDirectories out.outputFile.parent)
  Work.change (·.withText out.outputFile (outputRecord out now).pretty)
  Work.change (·.withText (out.outputFile.withExtension ".summary.txt") out.summary)

/-- Runs a kernel: validates, computes and persists. -/
def run (k : Kernel) (input : KernelInput) : Work KernelOutput := do
  let outputFile := k.outputPath input.workspace
  let problems ← Work.ofOutcome (k.validate (← Work.files) input)
  if !problems.isEmpty then
    problems.forM fun p => Work.tell ⟨.error, "[" ++ k.name ++ "] Validation error: " ++ p⟩
    return k.invalidOutput problems outputFile
  let out ← k.attempt input outputFile
  let out := { out with
    inputHash := k.inputHash input
    dependenciesUsed := (input.dependencies.map (·.1)).mergeSort }
  persist out input.now
  return out

/-- The data a run left in its output file; a failure tells of the path as it was written. -/
def loadDataAt (files : FileTree) (written : String) (p : Path) : Outcome Json := do
  let payload ← (files.readJson p).mapError fun f =>
    if f.kind.isSystem || f.kind = .malformedJson then .unreadableOutput written f.message else f
  let success ← (← payload.get "_meta" (.obj [])).get "success" (.bool false)
  if !success.truthy then throw (.failedDependency written)
  payload.get "data" (.obj [])

/-- The data a run left in its output file. -/
def loadData (files : FileTree) (p : Path) : Outcome Json := loadDataAt files p.toString p

end Kernel
end ValueDocs
