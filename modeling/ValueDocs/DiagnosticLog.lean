import ValueDocs.Json.Print
import ValueDocs.Json.Decode
import ValueDocs.World

/-!
# DiagnosticLog — diagnostics in two files

A log has a file of lines for people and a file of records, one a line, for programs.  A diagnostic
is logged at the level of its severity, in both files; an event below the level of the log is left
out.
-/

namespace ValueDocs

/-- A log of diagnostics. -/
structure DiagnosticLog where
  textFile : Path
  recordFile : Path
  /-- The least level that is written. -/
  level : Level
  /-- The time to write. -/
  now : String

/-- The level of a named severity. -/
def Level.ofSeverity (severity : Json) : Outcome Level :=
  match severity with
  | .str "note" => .ok .info
  | .str "error" => .ok .error
  | .arr _ | .obj _ => .error .wrongType
  | _ => .ok .warning

namespace Json

/-- The tree on one line with its fields in order, if its numbers can be written. -/
def written (j : Json) : Outcome String :=
  if j.isWritable then .ok j.sorted.compact else .error .unwritable

end Json

namespace DiagnosticLog

/-- Whether an event of a level is written. -/
def takes (log : DiagnosticLog) (level : Level) : Bool := decide (log.level.rank ≤ level.rank)

/-- The log with its files in a directory, which is made. -/
def create (directory : Path) (level : Level) (textName recordName now : String) :
    Work DiagnosticLog := do
  Work.change (·.withDirectories directory)
  return ⟨directory / textName, directory / recordName, level, now⟩

/-- Logs a line. -/
def logLine (log : DiagnosticLog) (line : String) (level : Level) : Work Unit := do
  if log.takes level then
    Work.change (·.withMoreText log.textFile
      ("[" ++ log.now ++ "] [" ++ level.name ++ "] " ++ line ++ "\n"))

/-- The record of an event. -/
def event (log : DiagnosticLog) (type data : Json) (level : Level) : Json :=
  .obj [("timestamp", .str log.now), ("level", .str level.name), ("type", type), ("data", data)]

/-- Logs an event. -/
def logEvent (log : DiagnosticLog) (type data : Json) (level : Level) : Work Unit := do
  if log.takes level then
    let line ← Work.ofOutcome (log.event type data level).written
    Work.change (·.withMoreText log.recordFile (line ++ "\n"))

/-- The place of a diagnostic: its file, and its line and column if it has a range. -/
def placeOf (d : Json) : Outcome String := do
  let source ← d.get "source" .null
  let source := if source.truthy then source else .str "<unknown>"
  let range ← d.get "range" .null
  if !range.truthy then source.shown
  else
    let lower ← range.field "lower"
    let line ← (← lower.field "line").shown
    let column ← (← lower.field "column").shown
    return (← source.text) ++ ":" ++ line ++ ":" ++ column

/-- The line of a diagnostic, and its level. -/
def describe (d : Json) : Outcome (String × Level) := do
  let severity ← d.get "severity" (.str "warning")
  let level ← Level.ofSeverity severity
  let place ← placeOf d
  let severity ← severity.shown
  let summary ← (← d.get "summary" (.str "")).shown
  return (place ++ ": " ++ severity ++ ": " ++ summary, level)

/-- Logs a diagnostic. -/
def logDiagnostic (log : DiagnosticLog) (d : Json) : Work Unit := do
  let (line, level) ← Work.ofOutcome (describe d)
  log.logLine line level
  log.logEvent (.str "diagnostic") d level

/-- Logs diagnostics, and counts them. -/
def logDiagnostics (log : DiagnosticLog) (ds : List Json) : Work Nat := do
  ds.forM log.logDiagnostic
  return ds.length

end DiagnosticLog
end ValueDocs
