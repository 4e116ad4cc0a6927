import ValueDocs.Reconciliation
import ValueDocs.Render

/-!
# Pass — one symbol's values from its pages to its render plan

A pass scans the documentation, aligns it with the declared values, resolves references and plans
the rendering.  Its diagnostics are one for each extra value and one for each reference that leads
nowhere, by place.  Passes over different symbols share nothing, so a batch is a list of passes and
the engine receives the diagnostics of each in turn.
-/

namespace ValueDocs

/-- What documents a symbol. -/
inductive Documentation where
  /-- The body of a page. -/
  | body (text : String)
  /-- A body for each variant, in order. -/
  | variants (bodies : List (Tag × String))
  /-- Values that are scanned already. -/
  | values (values : List DocumentedValue)
  deriving Inhabited

/-- What a pass is given. -/
structure PassInput where
  symbol : String
  documentation : Documentation
  declared : Declaration
  resolver : Option Resolver := none
  /-- The path references are resolved from; by default that of the symbol at the root. -/
  contextPath : Option String := none
  source : Option String := none
  /-- The number of page lines before the body. -/
  lineOffset : Int := 0
  /-- The variant to render. -/
  variant : Tag := none
  extraAttributes : List ExtraAttribute := []
  config : ValuesConfig := {}

/-- What a pass yields. -/
structure PassResult where
  symbol : String
  contextPath : String
  values : List ReconciledValue
  reconciliation : Reconciliation
  plan : RenderPlan
  diagnostics : List Diagnostic
  deriving Inhabited

namespace Pass

/-- The values a body documents under a configuration. -/
def scanBody (config : ValuesConfig) (source : Option String) (lineOffset : Int) (variant : Tag)
    (text : String) : Outcome (List DocumentedValue) := do
  let vocabulary ← config.directives.vocabulary
  return Directive.documentedValues vocabulary ⟨source, variant⟩ lineOffset text.toList

/-- The documented values of a documentation, those of several bodies in order. -/
def documentedValues (config : ValuesConfig) (source : Option String) (lineOffset : Int) :
    Documentation → Outcome (List DocumentedValue)
  | .body text => scanBody config source lineOffset none text
  | .variants bodies => do
    let scanned ← bodies.mapM fun (tag, text) => scanBody config source lineOffset tag text
    return scanned.flatten
  | .values values => .ok values

/-- The path references are resolved from. -/
def contextPath (input : PassInput) : String :=
  match input.contextPath with
  | some "" | none => "/" ++ input.symbol
  | some path => path

/-- The pass over documented and declared values. -/
def align (input : PassInput) (documented : List DocumentedValue)
    (declared : List DeclaredValue) : PassResult :=
  let path := contextPath input
  let reconciliation := Reconciliation.reconcile input.config.caseSensitive documented declared
  let unknown := reconciliation.extra.map
    (Diagnostic.unknownValue input.config declared input.symbol)
  let (values, unresolved) := match input.resolver with
    | some resolver => Resolution.resolveAll resolver path reconciliation.values
    | none => (reconciliation.values, [])
  { symbol := input.symbol
    contextPath := path
    values
    reconciliation
    plan := RenderPlan.ofValues input.variant input.extraAttributes values
    diagnostics := Diagnostic.sort (unknown ++ unresolved) }

/-- The pass over one symbol. -/
def run (input : PassInput) : Outcome PassResult := do
  let documented ← documentedValues input.config input.source input.lineOffset input.documentation
  let declared ← input.declared.toValues
  return align input documented declared

/-- The passes over several symbols, and the engine with the diagnostics of each. -/
def runAll (inputs : List PassInput) (engine : Engine) : Outcome (List PassResult × Engine) := do
  let results ← inputs.mapM run
  return (results, engine.emitAll (results.flatMap (·.diagnostics)))

theorem runAll_eq_ok_iff {inputs : List PassInput} {engine after : Engine}
    {results : List PassResult} : runAll inputs engine = .ok (results, after) ↔
      inputs.mapM run = .ok results ∧ engine.emitAll (results.flatMap (·.diagnostics)) = after := by
  rw [runAll]
  cases inputs.mapM run with
  | error e => exact ⟨nofun, fun h => nomatch h.1⟩
  | ok rs =>
    constructor
    · rintro ⟨⟩
      exact ⟨rfl, rfl⟩
    · rintro ⟨⟨⟩, rfl⟩
      rfl

end Pass

end ValueDocs
