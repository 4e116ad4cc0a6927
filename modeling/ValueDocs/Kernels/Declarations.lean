import ValueDocs.Catalog
import ValueDocs.Kernel

/-!
# Kernels/Declarations — the values that symbols declare

The first stage also loads the catalog and extracts what each of its symbols declares.
-/

namespace ValueDocs

/-- The catalog in a file. -/
def Catalog.load (files : FileTree) (path : Path) : Outcome Catalog := do
  Catalog.ofJson (← files.readJson path)

namespace Kernels
namespace Declarations

/-- A symbol with the values it declares, as a data tree. -/
def symbolJson (s : Symbol) (declared : List DeclaredValue) : Json :=
  match s.toJson with
  | .obj fields => .obj (fields ++ [("canonical", .arr (declared.map DeclaredValue.toJson))])
  | j => j

/-- What is found in a catalog, with what each symbol declares. -/
def findings (catalog : Catalog) (declared : List (List DeclaredValue)) : Findings :=
  let withValues := (declared.filter (!·.isEmpty)).length
  { data := .obj [("module", catalog.module), ("articles", .arr catalog.articles),
      ("symbols", .arr (List.zipWith symbolJson catalog.symbols declared)),
      ("total_symbols", .int catalog.symbols.length), ("symbols_with_values", .int withValues)]
    summary := "Catalog '" ++ catalog.module.display ++ "': " ++ toString catalog.symbols.length ++
      " symbol(s), " ++ toString withValues ++ " declaring possible values, " ++
      toString catalog.articles.length ++ " article(s)" }

/-- Loads the configured catalog. -/
def compute (input : KernelInput) : Work Findings := do
  let given := (input.config.lookup "catalog").getD .null
  if !given.truthy then throw .noCatalog
  let files ← Work.files
  Work.ofOutcome do
    let path := Path.ofString (← given.text)
    if !(← files.isFile path) then throw (.catalogNotFound path.toString)
    let catalog ← Catalog.load files path
    return findings catalog (← catalog.symbols.mapM Symbol.declaredValues)

end Declarations

/-- The stage that loads the catalog. -/
def declarations : Kernel where
  name := "pv_canonical"
  category := "values"
  stage := 1
  description := "Canonical possible values from the symbol catalog"
  provides := ["canonical_values"]
  origin := .builtIn
  compute := Declarations.compute

end Kernels
end ValueDocs
