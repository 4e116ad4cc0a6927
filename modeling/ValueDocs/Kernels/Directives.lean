import ValueDocs.Kernel
import ValueDocs.Page
import ValueDocs.Pass

/-!
# Kernels/Directives — the values that pages document

The first stage reads the configured pages, finds the symbol each documents, and scans its body.  A
page is configured by its path alone, or with a variant and a symbol.
-/

namespace ValueDocs.Kernels

/-- A page to read. -/
structure PageSpec where
  path : String
  /-- The variant its values are for, which is passed on as it is. -/
  variant : Json := .null
  /-- The symbol it documents, where its title does not tell. -/
  symbol : Json := .null

/-- A page that has been read. -/
structure ScannedPage where
  path : String
  symbol : Json
  variant : Json
  offset : Nat
  values : List DocumentedValue

namespace PageSpec

/-- The page a configuration names. -/
def ofJson (j : Json) : Outcome PageSpec := do
  match j with
  | .str path => return { path }
  | .obj _ =>
    let path ← j.get "path" .null
    if !path.truthy then throw (.invalidPage j)
    let variant ← j.get "variant" .null
    let symbol ← j.get "symbol" .null
    return { path := path.display, variant, symbol }
  | _ => throw (.invalidPage j)

end PageSpec

namespace ScannedPage

/-- The page that a specification names. -/
def read (config : ValuesConfig) (spec : PageSpec) (files : FileTree) : Outcome ScannedPage := do
  let path := Path.ofString spec.path
  if !(← files.isFile path) then throw (.pageNotFound path.toString)
  let page := Page.ofText (← files.readText path)
  let symbol := if spec.symbol.truthy then spec.symbol else .ofText? page.title
  if !symbol.truthy then throw (.pageWithoutSymbol path.toString)
  let values ← Pass.scanBody config (some spec.path) page.offset none (String.ofList page.body)
  return ⟨spec.path, symbol, spec.variant, page.offset, values⟩

/-- The data tree of a value of a page, which is for the variant of the page. -/
def valueJson (variant : Json) (v : DocumentedValue) : Json :=
  match v.toJson with
  | .obj fields => .obj (Json.setField "variant" variant fields)
  | j => j

/-- The data tree of a page. -/
def toJson (p : ScannedPage) : Json :=
  .obj [("path", .str p.path), ("symbol", p.symbol), ("variant", p.variant),
    ("line_offset", .int p.offset), ("entries", .arr (p.values.map (valueJson p.variant)))]

end ScannedPage

namespace Directives

/-- The number of values on some pages. -/
def total (pages : List ScannedPage) : Nat := (pages.flatMap (·.values)).length

/-- The line that tells of some pages, whose symbols are texts. -/
def summary (pages : List ScannedPage) : Outcome String := do
  let symbols := (Metadata.distinct (← pages.mapM (·.symbol.text))).mergeSort
  return "Directives: " ++ toString (total pages) ++ " possible value(s) in " ++
    toString pages.length ++ " page(s). Symbols: " ++
    (if symbols.isEmpty then "none" else ", ".intercalate symbols)

/-- What is found on some pages. -/
def findings (pages : List ScannedPage) : Outcome Findings := do
  return {
    data := .obj [("pages", .arr (pages.map ScannedPage.toJson)),
      ("total_pages", .int pages.length), ("total_entries", .int (total pages))]
    summary := ← summary pages }

/-- Reads the configured pages. -/
def compute (input : KernelInput) : Work Findings := do
  let given := (input.config.lookup "pages").getD .null
  if !given.truthy then throw .noPages
  let config ← Work.ofAttempt (ValuesConfig.ofJson ((input.config.lookup "values").getD .null))
  let files ← Work.files
  Work.ofOutcome do
    let pages ← given.mapElements fun item => do
      ScannedPage.read config (← PageSpec.ofJson item) files
    findings pages

end Directives

/-- The stage that reads pages. -/
def directives : Kernel where
  name := "pv_directives"
  category := "values"
  stage := 1
  description := "Possible-value directives of documentation pages"
  provides := ["documented_values"]
  origin := .builtIn
  compute := Directives.compute

end ValueDocs.Kernels
