import ValueDocs.Diagnostic
import ValueDocs.Loose.Values

/-!
# Loose/Diagnostic — problems found in records

The diagnostic for an undeclared value shows the names it concerns, of whatever sort they are, but
only texts can be compared for nearness.  Diagnostics are sorted by place, kind and summary; a line
that is a number and one that is a text have no order.
-/

namespace ValueDocs
namespace Loose

/-- A suggested fix; without a replacement that part is null. -/
structure Solution where
  summary : Json
  replacement : Json := .null
  replacementRange : Option Span := none
  deriving DecidableEq, Inhabited

/-- A problem report with its place and suggested fixes. -/
structure Diagnostic where
  kind : DiagnosticKind
  summary : Json
  source : Json := .null
  range : Option Span := none
  solutions : List Solution := []
  severity : Severity := .warning
  deriving DecidableEq, Inhabited

namespace Solution

/-- The data tree of a solution; without a replacement its range is left out too. -/
def toJson (s : Solution) : Json :=
  .obj (("summary", s.summary) ::
    if s.replacement = .null then []
    else [("replacement", s.replacement), ("replacement_range", Span.toJson? s.replacementRange)])

/-- The solution in a data tree. -/
def ofJson (j : Json) : Outcome Solution := do
  let summary ← j.field "summary"
  let replacement ← j.get "replacement" .null
  let range ← Span.get? j "replacement_range"
  return ⟨summary, replacement, range⟩

end Solution

/-! ## The fix for an undeclared value -/

namespace Suggestion

/-- A name as a text, which has a length and a case folding. -/
def nameText (caseSensitive : Bool) : Json → Outcome String
  | .str s => .ok s
  | _ => .error (if caseSensitive then .wrongType else .noMember)

/-- The name that a policy picks among equally near values. -/
def pick? (tieBreak : TieBreak) : List (String × DeclaredValue) → Outcome (Option String)
  | [(name, _)] => .ok (some name)
  | ds =>
    match tieBreak with
    | .none => .ok none
    | .declarationOrder => do return (← Json.leastOn (fun d => d.2.order) ds).map (·.1)
    | .alphabetical =>
      .ok ((ValueDocs.Suggestion.leastBy (fun a b => decide (a.1 < b.1)) ds).map (·.1))

/-- The declared name to propose instead of a name, if any. -/
def bestMatch? (config : ValuesConfig) (name : String) (declared : List (String × DeclaredValue)) :
    Outcome (Option String) :=
  let distance (d : String × DeclaredValue) :=
    ValueDocs.Suggestion.keyDistance config.caseSensitive name d.1
  match ValueDocs.Suggestion.nearestBy distance declared with
  | none => .ok none
  | some nearest =>
    if nearest.distance > config.suggestion.maxEditDistance then .ok none
    else pick? config.suggestion.tieBreak nearest.values

/-- The declared name to propose, where nothing is asked of the name unless something is declared. -/
def proposal? (config : ValuesConfig) (name : Json) (declared : List (String × DeclaredValue)) :
    Outcome (Option String) :=
  if declared.isEmpty then .ok none
  else do bestMatch? config (← nameText config.caseSensitive name) declared

/-- The one solution for an undeclared name. -/
def solution (config : ValuesConfig) (name : Json) (nameRange : Option Span)
    (declared : List DeclaredValue) : Outcome Solution := do
  let named ← declared.mapM fun d => do return (← nameText config.caseSensitive d.name, d)
  match ← proposal? config name named with
  | some best =>
    return ⟨.str (ValueDocs.Suggestion.replacementSummary name.display best), .str best, nameRange⟩
  | none =>
    let known := (named.map (·.1)).mergeSort fun a b => decide (a ≤ b)
    return { summary := .str (ValueDocs.Suggestion.knownNamesMessage name.display known) }

end Suggestion

namespace Diagnostic

/-- What diagnostics are sorted by: source, line, column, kind and summary. -/
def sortKey (d : Diagnostic) : Json :=
  .arr [d.source.orElse (.str ""), (d.range.map (·.lower.line)).getD (.int 0),
    (d.range.map (·.lower.column)).getD (.int 0), .str d.kind.name, d.summary]

/-- Diagnostics in the order of their places. -/
def sort (ds : List Diagnostic) : Outcome (List Diagnostic) := Json.sortedOn sortKey ds

/-- The data tree of a diagnostic. -/
def toJson (d : Diagnostic) : Json :=
  .obj [("identifier", .str d.kind.identifier), ("kind", .str d.kind.name),
    ("severity", .str d.severity.name), ("summary", d.summary), ("source", d.source),
    ("range", Span.toJson? d.range), ("solutions", .arr (d.solutions.map Solution.toJson))]

/-- The diagnostic in a data tree. -/
def ofJson (j : Json) : Outcome Diagnostic := do
  let kind ← DiagnosticKind.ofJson (← j.field "kind")
  let summary ← j.field "summary"
  let source ← j.get "source" .null
  let range ← Span.get? j "range"
  let solutions ← itemsOf Solution.ofJson j "solutions"
  let severity ← Severity.ofJson (← j.get "severity" (.str Severity.warning.name))
  return ⟨kind, summary, source, range, solutions, severity⟩

/-- The diagnostic for a documented value that a symbol does not declare. -/
def unknownValue (config : ValuesConfig) (declared : List DeclaredValue) (symbol : Json)
    (v : DocumentedValue) : Outcome Diagnostic := do
  let solution ← Suggestion.solution config v.name v.nameRange declared
  return {
    kind := .unknownValue
    summary := .str (ValueDocs.Diagnostic.unknownValueSummary v.name.display symbol.display)
    source := v.source
    range := v.range
    solutions := [solution] }

end Diagnostic

/-! ## The engine -/

/-- The diagnostics collected so far, in the order they were emitted. -/
structure Engine where
  problems : List Diagnostic := []
  deriving Inhabited

namespace Engine

/-- Collects some diagnostics. -/
def emitAll (e : Engine) (ds : List Diagnostic) : Engine := ⟨e.problems ++ ds⟩

/-- The number of diagnostics of a kind, or of all. -/
def count (e : Engine) (kind : Option DiagnosticKind) : Nat :=
  match kind with
  | none => e.problems.length
  | some k => e.problems.countP fun d => d.kind = k

/-- The diagnostics by place; the engine is empty afterwards. -/
def drain (e : Engine) : Outcome (List Diagnostic) := Diagnostic.sort e.problems

end Engine
end Loose

/-! ## What a check on texts finds -/

/-- A solution as a record holds it. -/
def Solution.toLoose (s : Solution) : Loose.Solution :=
  ⟨.str s.summary, .ofText? s.replacement, s.replacementRange.map Range.toLoose⟩

/-- A diagnostic as a record holds it. -/
def Diagnostic.toLoose (d : Diagnostic) : Loose.Diagnostic :=
  ⟨d.kind, .str d.summary, .ofText? d.source, d.range.map Range.toLoose,
    d.solutions.map Solution.toLoose, d.severity⟩

/-- An engine as one for records. -/
def Engine.toLoose (e : Engine) : Loose.Engine := ⟨e.problems.map Diagnostic.toLoose⟩

end ValueDocs
