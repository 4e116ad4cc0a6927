import Std.Time.DateTime.Timestamp
import ValueDocs.Clock
import ValueDocs.CommandLine.Commands
import ValueDocs.Version

/-!
# Main — the program at a command line

The files a command may read are loaded into a tree, the command is carried out on the tree, and
what it changed there is written back.  What the command prints and how it ends come from the tree
alone.
-/

open ValueDocs

namespace ValueDocs.Program

/-! ## Loading -/

/-- The tree with what stands at a location. -/
def loadAt (t : FileTree) (place : Location) : IO FileTree := do
  match ← (IO.FS.readBinFile (Path.ofParts place).toString).toBaseIO with
  | .ok bytes => return t.set place (.file bytes.toList)
  | .error (.inappropriateType ..) =>
    -- what lies below a file counts as missing, and its parent is loaded as a file
    match t.node? place.dropLast with
    | some (.file _) => return t
    | _ => return t.set place .directory
  | .error _ => return t

/-- The tree with what stands at a path and on the way there. -/
def loadPath (t : FileTree) (p : Path) : IO FileTree :=
  (p.resolve t.cwd).ancestors.foldlM (fun t above =>
    if (t.node? above.parts).isSome then return t else loadAt t above.parts) t

/-- The paths beside an asked workspace, and inside it, that a check looks at. -/
def workspacePaths (workspace : Path) : List Path :=
  workspace :: Registry.builtIn.flatMap fun k =>
    [k.outputPath workspace, (k.outputPath workspace).parent]

/-- The paths a command looks at. -/
def pathsOf (home : Path) (cwd : Location) (invocation : CommandLine.Invocation) :
    List Path :=
  let config := match invocation.config.filter (· ≠ "") with
    | some c => [Path.ofString c]
    | none => Settings.candidates home (Path.resolve cwd .here)
  config ++ match invocation.command with
    | some (.check request) =>
      let pages := request.pages.map Path.ofString
      let workspace := match request.workspace.filter (· ≠ "") with
        | some w => workspacePaths (Path.ofString w)
        | none => pages.map fun p => p.parent / ".docval"
      pages ++ (request.catalog.text?.map Path.ofString).toList ++ workspace
    | some (.show request) =>
      Path.ofString request.page :: (request.catalog.text?.map Path.ofString).toList
    | _ => []

/-! ## Writing back -/

/-- Writes what changed at a location. -/
def storeAt (before : FileTree) (place : Location) (node : FileNode) : IO Unit := do
  if before.node? place ≠ some node then
    let path := (Path.ofParts place).toString
    match node with
    | .directory => IO.FS.createDirAll path
    | .file bytes => IO.FS.writeBinFile path ⟨bytes.toArray⟩

/-- Writes back what changed from one tree to another. -/
def store (before after : FileTree) : IO Unit := do
  for (place, _) in before.nodes do
    if (after.node? place).isNone then IO.FS.removeFile (Path.ofParts place).toString
  for (place, node) in after.nodes do
    storeAt before place node

/-! ## Running -/

/-- The variables a command heeds. -/
def variableNames : List String := [
    "DOCVAL_MAX_EDIT_DISTANCE", "DOCVAL_TIE_BREAK", "DOCVAL_CASE_SENSITIVE", "DOCVAL_LOG_LEVEL",
    "DOCVAL_LOG_DIR"]

/-- The environment of the program. -/
def environment : IO Environment := do
  let home := (← IO.getEnv "HOME").getD "/"
  let bindings ← variableNames.filterMapM fun name => do
    return (← IO.getEnv name).map (name, ·)
  return ⟨Path.ofString home, bindings⟩

/-- Carries out a command, and yields the number the program ends with. -/
def perform (invocation : CommandLine.Invocation) (command : CommandLine.Command) : IO UInt32 := do
  let environment ← environment
  let cwd := (Path.ofString (toString (← IO.currentDir))).parts
  let paths := pathsOf environment.home cwd invocation
  let files ← paths.foldlM loadPath ⟨cwd, []⟩
  let seconds := (← Std.Time.Timestamp.now).toSecondsSinceUnixEpoch.val.toNat
  let colour ← (← IO.getStdout).isTty
  let (result, session) := (CommandLine.perform
    { environment, colour, now := Clock.write seconds } invocation command).run
      { world := { files } }
  store files session.world.files
  for message in session.world.log do
    IO.eprintln message.toString
  IO.print session.world.printed
  match result with
  | .ok code => return UInt32.ofNat code
  | .error failure =>
    IO.eprintln (failure.kind.name ++ ": " ++ failure.report)
    return 1

/-- The words that explain the program. -/
def usage : String :=
  Version.banner ++ "\n\nusage: pvctl [-v] [-c CONFIG] check|show|kernels ...\n" ++
    "  check PAGE... --catalog FILE [-w DIR] [--variant TAG] [--strict] [--json]\n" ++
    "  show PAGE --catalog FILE [--symbol NAME] [--variant TAG] [--json]\n" ++
    "  kernels [--category NAME]"

end ValueDocs.Program

/-- The program. -/
def main (words : List String) : IO UInt32 := do
  match CommandLine.parse words with
  | .error .help =>
    IO.println Program.usage
    return 0
  | .error .misuse =>
    IO.eprintln Program.usage
    return 2
  | .ok invocation =>
    match invocation.command with
    | some command => Program.perform invocation command
    | none =>
      IO.println Program.usage
      return 0
