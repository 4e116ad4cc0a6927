import ValueDocs.Loose.Reconciliation
import ValueDocs.Loose.Render
import ValueDocs.Pass

/-!
# Loose/Pass — one symbol's values, from pages or from records

The pass that the checks run.  It takes what a page documents, scanned here or read back from a
record, and fails where a part that it uses is of no use; on texts and whole numbers it is the pass
of `ValueDocs.Pass`.
-/

namespace ValueDocs
namespace Loose

/-- What documents a symbol. -/
inductive Documentation where
  /-- Pages, or values scanned from them. -/
  | pages (documentation : ValueDocs.Documentation)
  /-- Values of records. -/
  | values (values : List DocumentedValue)
  deriving Inhabited

/-- Where the declared values of a symbol come from. -/
inductive Declaration where
  /-- The metadata of the symbol, or values read from it. -/
  | source (declaration : ValueDocs.Declaration)
  /-- Values of records. -/
  | values (values : List DeclaredValue)
  deriving Inhabited

/-- What a pass is given. -/
structure PassInput where
  symbol : Json
  documentation : Documentation
  declared : Declaration
  resolver : Option Resolver := none
  /-- The path references are resolved from; by default that of the symbol at the root. -/
  contextPath : Option String := none
  source : Option String := none
  /-- The number of page lines before the body. -/
  lineOffset : Int := 0
  /-- The variant to render. -/
  variant : Json := .null
  extraAttributes : List ExtraAttribute := []
  config : ValuesConfig := {}

/-- What a pass yields. -/
structure PassResult where
  symbol : Json
  contextPath : String
  values : List ReconciledValue
  reconciliation : Reconciliation
  plan : RenderPlan
  diagnostics : List Diagnostic
  deriving Inhabited

/-- The documented values of a documentation. -/
def Documentation.toValues (config : ValuesConfig) (source : Option String) (lineOffset : Int) :
    Documentation → Outcome (List DocumentedValue)
  | pages documentation => do
    let values ← ValueDocs.Pass.documentedValues config source lineOffset documentation
    return values.map ValueDocs.DocumentedValue.toLoose
  | values vs => .ok vs

/-- The values of a declaration. -/
def Declaration.toValues : Declaration → Outcome (List DeclaredValue)
  | source declaration => do
    return (← declaration.toValues).map ValueDocs.DeclaredValue.toLoose
  | values vs => .ok vs

namespace Pass

/-- The path references are resolved from. -/
def contextPath (input : PassInput) : String :=
  match input.contextPath with
  | some "" | none => "/" ++ input.symbol.display
  | some path => path

/-- Values with their content resolved, if there is a resolver. -/
def resolve (resolver : Option Resolver) (contextPath : String) (values : List ReconciledValue) :
    Outcome (Resolution.Reported (List ReconciledValue)) :=
  match resolver with
  | some resolver => Resolution.resolveAll resolver contextPath values
  | none => .ok (values, [])

/-- The pass over documented and declared values. -/
def align (input : PassInput) (documented : List DocumentedValue)
    (declared : List DeclaredValue) : Outcome PassResult := do
  let path := contextPath input
  let reconciliation ← Reconciliation.reconcile input.config.caseSensitive documented declared
  let unknown ← reconciliation.extra.mapM
    (Diagnostic.unknownValue input.config declared input.symbol)
  let (values, unresolved) ← resolve input.resolver path reconciliation.values
  let plan ← RenderPlan.ofValues input.variant input.extraAttributes values
  let diagnostics ← Diagnostic.sort (unknown ++ unresolved)
  return { symbol := input.symbol, contextPath := path, values, reconciliation, plan, diagnostics }

/-- The pass over one symbol. -/
def run (input : PassInput) : Outcome PassResult := do
  let documented ← input.documentation.toValues input.config input.source input.lineOffset
  let declared ← input.declared.toValues
  align input documented declared

/-- The passes over several symbols, and the engine with the diagnostics of each. -/
def runAll (inputs : List PassInput) (engine : Engine) : Outcome (List PassResult × Engine) := do
  let results ← inputs.mapM run
  return (results, engine.emitAll (results.flatMap (·.diagnostics)))

end Pass

namespace PassResult

/-- Whether the contents of all values can be listed in order. -/
def isListable (r : PassResult) : Bool := r.values.all (·.content.isListable)

/-- The data tree of a result whose contents can be listed. -/
def toJson (r : PassResult) : Json :=
  .obj [("symbol", r.symbol), ("context_path", .str r.contextPath),
    ("entries", .arr (r.values.map ReconciledValue.toJson)),
    ("extra", .arr (r.reconciliation.extra.map (·.name))),
    ("implicit", .arr (r.reconciliation.implicit.map (·.name))),
    ("render", r.plan.toJson),
    ("diagnostics", .arr (r.diagnostics.map Diagnostic.toJson))]

/-- The data tree of a result, if its contents can be listed in order. -/
def tree (r : PassResult) : Outcome Json :=
  if r.isListable then .ok r.toJson else .error .wrongType

end PassResult
end Loose

/-! ## A pass over texts -/

/-- A resolver that never fails, and whose titles are texts. -/
def Resolver.toLoose (resolver : Resolver) : Loose.Resolver := fun r path =>
  .ok ((resolver r path).map fun link => ⟨link.destination, .str link.title⟩)

/-- What a pass is given, as a record holds it. -/
def PassInput.toLoose (input : PassInput) : Loose.PassInput where
  symbol := .str input.symbol
  documentation := .pages input.documentation
  declared := .source input.declared
  resolver := input.resolver.map Resolver.toLoose
  contextPath := input.contextPath
  source := input.source
  lineOffset := input.lineOffset
  variant := .ofText? input.variant
  extraAttributes := input.extraAttributes.map ExtraAttribute.toLoose
  config := input.config

/-- What a pass yields, as a record holds it. -/
def PassResult.toLoose (r : PassResult) : Loose.PassResult where
  symbol := .str r.symbol
  contextPath := r.contextPath
  values := r.values.map ReconciledValue.toLoose
  reconciliation := r.reconciliation.toLoose
  plan := r.plan.toLoose
  diagnostics := r.diagnostics.map Diagnostic.toLoose

end ValueDocs
