import ValueDocs.Suggestion.Nearest
import ValueDocs.Value.Documented

/-!
# Diagnostic — problems found in authored pages

A diagnostic is of one of two kinds and stands at a place of a page.  The engine collects
diagnostics in the order they are emitted and hands them over sorted by place; sorting is stable, so
diagnostics at one place keep their order.
-/

namespace ValueDocs

/-- The kinds of problems. -/
inductive DiagnosticKind where
  | unknownValue
  | unresolvedReference
  deriving DecidableEq, Repr, Inhabited

/-- How severe a problem is; none is fatal. -/
inductive Severity where
  | note
  | warning
  deriving DecidableEq, Repr, Inhabited

namespace DiagnosticKind

/-- The name of a kind in a record. -/
def name : DiagnosticKind → String
  | unknownValue => "unknown_value_documented"
  | unresolvedReference => "unresolved_reference"

/-- The identifier shown with a diagnostic of a kind. -/
def identifier : DiagnosticKind → String
  | unknownValue => "docval.PossibleValues.UnknownValue"
  | unresolvedReference => "docval.References.Unresolved"

/-- The kind in a data tree. -/
def ofJson : Json → Outcome DiagnosticKind :=
  ofName "DiagnosticKind" [unknownValue, unresolvedReference] name

end DiagnosticKind

namespace Severity

/-- The name of a severity in a record. -/
def name : Severity → String
  | note => "note"
  | warning => "warning"

/-- The severity in a data tree. -/
def ofJson : Json → Outcome Severity := ofName "Severity" [note, warning] name

end Severity

/-- A problem report with its place and suggested fixes. -/
structure Diagnostic where
  kind : DiagnosticKind
  summary : String
  source : Option String := none
  range : Option Range := none
  solutions : List Solution := []
  severity : Severity := .warning
  deriving DecidableEq, Repr, Inhabited

namespace Diagnostic

/-- What diagnostics are sorted by. -/
structure SortKey where
  source : String
  line : Int
  column : Int
  kind : String
  summary : String
  deriving DecidableEq, Repr

/-- The place of a diagnostic among others. -/
def sortKey (d : Diagnostic) : SortKey :=
  { source := d.source.getD ""
    line := (d.range.map (·.lower.line)).getD 0
    column := (d.range.map (·.lower.column)).getD 0
    kind := d.kind.name
    summary := d.summary }

/-- The order of sort keys: field by field. -/
def SortKey.le (a b : SortKey) : Bool :=
  if a.source ≠ b.source then decide (a.source < b.source)
  else if a.line ≠ b.line then decide (a.line < b.line)
  else if a.column ≠ b.column then decide (a.column < b.column)
  else if a.kind ≠ b.kind then decide (a.kind < b.kind)
  else decide (a.summary ≤ b.summary)

/-- Diagnostics in the order of their places. -/
def sort (ds : List Diagnostic) : List Diagnostic :=
  ds.mergeSort fun a b => a.sortKey.le b.sortKey

/-- The data tree of a sort key. -/
def SortKey.toJson (k : SortKey) : Json :=
  .arr [.str k.source, .int k.line, .int k.column, .str k.kind, .str k.summary]

/-- The data tree of a diagnostic. -/
def toJson (d : Diagnostic) : Json :=
  .obj [("identifier", .str d.kind.identifier), ("kind", .str d.kind.name),
    ("severity", .str d.severity.name), ("summary", .str d.summary),
    ("source", .ofText? d.source), ("range", Range.toJson? d.range),
    ("solutions", .arr (d.solutions.map Solution.toJson))]

/-! ## Undeclared values -/

/-- The summary for a value that a symbol does not declare. -/
def unknownValueSummary (name symbol : String) : String :=
  "'" ++ name ++ "' is not a known possible value for '" ++ symbol ++ "'."

/-- The diagnostic for a documented value that a symbol does not declare. -/
def unknownValue (config : ValuesConfig) (declared : List DeclaredValue) (symbol : String)
    (v : DocumentedValue) : Diagnostic :=
  { kind := .unknownValue
    summary := unknownValueSummary v.name symbol
    source := v.source
    range := v.range
    solutions := [Suggestion.solution config v.name v.nameRange declared] }

end Diagnostic

/-! ## Collecting -/

/-- The diagnostics emitted since the engine was last drained, in that order. -/
structure Engine where
  problems : List Diagnostic := []
  deriving Repr, Inhabited

namespace Engine

/-- The engine with one more diagnostic. -/
def emit (e : Engine) (d : Diagnostic) : Engine := ⟨e.problems ++ [d]⟩

/-- The engine with more diagnostics. -/
def emitAll (e : Engine) (ds : List Diagnostic) : Engine := ds.foldl emit e

/-- The number of diagnostics of a kind, or of all. -/
def count (e : Engine) (kind : Option DiagnosticKind) : Nat :=
  match kind with
  | none => e.problems.length
  | some k => e.problems.countP fun d => d.kind = k

/-- The diagnostics by place, and the engine without them. -/
def drain (e : Engine) : List Diagnostic × Engine := (Diagnostic.sort e.problems, {})

@[simp] theorem problems_emitAll (e : Engine) (ds : List Diagnostic) :
    (e.emitAll ds).problems = e.problems ++ ds := by
  induction ds generalizing e with
  | nil => simp [emitAll]
  | cons d ds ih => simpa [emitAll, emit] using ih (e.emit d)

end Engine
end ValueDocs
