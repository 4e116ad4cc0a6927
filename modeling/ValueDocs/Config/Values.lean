import ValueDocs.Log
import ValueDocs.Directive.Scan

/-!
# Config/Values — what the pass over possible values is told

The settings say how near a suggestion must be and how ties are settled, whether case counts, which
keywords introduce values, and how many workers a batch may use.  A setting out of range is mended
with a warning; one of the wrong type fails.  Keywords are kept as given and read when a page is
scanned.
-/

namespace ValueDocs

/-- How to choose among values that are equally near. -/
inductive TieBreak where
  /-- Choose none. -/
  | none
  /-- The one declared first. -/
  | declarationOrder
  /-- The one with the least name. -/
  | alphabetical
  deriving DecidableEq, Repr, Inhabited

namespace TieBreak

/-- The name of a policy. -/
def name : TieBreak → String
  | none => "none"
  | declarationOrder => "declaration_order"
  | alphabetical => "alphabetical"

/-- The policy a setting names. -/
def ofJson? (j : Json) : Option TieBreak :=
  [none, declarationOrder, alphabetical].find? fun p => j == .str p.name

/-- The policy a setting names; any other setting is mended, if the warning can show it. -/
def read (j : Json) : Attempt TieBreak :=
  match ofJson? j with
  | some p => pure p
  | Option.none => do
    let shown ← .ofOutcome j.shown
    Logged.warn ("Unknown tie_break policy '" ++ shown ++ "', defaulting to 'none'")
    return none

end TieBreak

/-- When a near name is suggested. -/
structure SuggestionPolicy where
  maxEditDistance : Nat := 2
  tieBreak : TieBreak := .none
  deriving DecidableEq, Repr, Inhabited

namespace SuggestionPolicy

/-- A greatest distance; a negative one is mended, if the warning can show it. -/
def readDistance (n : Int) : Attempt Nat :=
  if n < 0 then do
    let shown ← .ofOutcome (Json.int n).shown
    Logged.warn ("max_edit_distance=" ++ shown ++ " is negative, using 0")
    return 0
  else pure n.toNat

end SuggestionPolicy

/-- The settings for the keywords of the two forms, as given. -/
structure DirectiveConfig where
  blockKeywords : Json := .ofTexts ["PossibleValues", "Possible Values"]
  inlineKeywords : Json := .ofTexts ["PossibleValue", "Possible Value"]
  deriving Inhabited

/-- How many workers a batch may use: at least one. -/
inductive WorkerLimit where
  | whole (n : Nat)
  | fractional (x : Binary64)
  deriving DecidableEq, Repr, Inhabited

/-- The settings of the pass. -/
structure ValuesConfig where
  suggestion : SuggestionPolicy := {}
  caseSensitive : Bool := true
  directives : DirectiveConfig := {}
  maxWorkers : WorkerLimit := .whole 4
  deriving Inhabited

namespace DirectiveConfig

/-- The texts of a keyword setting. -/
def texts (setting : Json) : Outcome (List String) := do
  (← setting.elements).mapM fun
    | .str s => .ok s
    | _ => .error .noMember

/-- The keywords of both forms. -/
def vocabulary (c : DirectiveConfig) : Outcome Directive.Vocabulary := do
  let block ← texts c.blockKeywords
  let inline ← texts c.inlineKeywords
  return ⟨Directive.keywords block, Directive.keywords inline⟩

end DirectiveConfig

namespace WorkerLimit

/-- The limit in a setting; less than one counts as one. -/
def ofJson : Json → Outcome WorkerLimit
  | .int n => .ok (.whole (max 1 n.toNat))
  | .bool _ => .ok (.whole 1)
  | .float x => .ok (if x.exceedsOne then .fractional x else .whole 1)
  | _ => .error .wrongType

/-- The data tree of a limit. -/
def toJson : WorkerLimit → Json
  | whole n => .int n
  | fractional x => .float x

end WorkerLimit

/-- The whole number in a setting: a fraction is cut off and a text is read. -/
def Json.toWhole : Json → Outcome Int
  | .int n => .ok n
  | .bool b => .ok (if b then 1 else 0)
  | .float (.finite negative m e) => .ok (Binary64.truncate negative m e)
  | .float (.infinite _) => .error .infinite
  | .float .notANumber => .error .notANumber
  | .str s =>
    (Text.integer s.toList).mapError fun
      | .malformed => .notWhole s
      | .tooLong digits => .tooManyDigits digits
  | _ => .error .wrongType

namespace ValuesConfig

/-- The settings in a data tree; absent ones take their defaults. -/
def ofJson (j : Json) : Attempt ValuesConfig := do
  let j := if j.truthy then j else .obj []
  let defaults : ValuesConfig := {}
  let suggestion ← .ofOutcome (j.get "suggestion" (.obj []))
  let matching ← .ofOutcome (j.get "matching" (.obj []))
  let directives ← .ofOutcome (j.get "directives" (.obj []))
  let distance ← .ofOutcome do
    (← suggestion.get "max_edit_distance" (.int defaults.suggestion.maxEditDistance)).toWhole
  let tieBreak ← .ofOutcome (suggestion.get "tie_break" (.str defaults.suggestion.tieBreak.name))
  let distance ← SuggestionPolicy.readDistance distance
  let tieBreak ← TieBreak.read tieBreak
  .ofOutcome do
    let caseSensitive ← matching.get "case_sensitive" (.bool defaults.caseSensitive)
    let block ← directives.get "block_keywords" defaults.directives.blockKeywords
    let inline ← directives.get "inline_keywords" defaults.directives.inlineKeywords
    let workers ← WorkerLimit.ofJson (← j.get "max_workers" defaults.maxWorkers.toJson)
    return ⟨⟨distance, tieBreak⟩, caseSensitive.truthy, ⟨block, inline⟩, workers⟩

/-- The data tree of settings. -/
def toJson (c : ValuesConfig) : Outcome Json := do
  let block ← c.directives.blockKeywords.elements
  let inline ← c.directives.inlineKeywords.elements
  return .obj [
    ("suggestion", .obj [("max_edit_distance", .int c.suggestion.maxEditDistance),
      ("tie_break", .str c.suggestion.tieBreak.name)]),
    ("matching", .obj [("case_sensitive", .bool c.caseSensitive)]),
    ("directives", .obj [("block_keywords", .arr block), ("inline_keywords", .arr inline)]),
    ("max_workers", c.maxWorkers.toJson)]

end ValuesConfig
end ValueDocs
