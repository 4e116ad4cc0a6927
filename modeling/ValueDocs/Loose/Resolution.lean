import ValueDocs.Catalog
import ValueDocs.Loose.Diagnostic
import ValueDocs.Resolution

/-!
# Loose/Resolution — references in records turned into links

A catalog resolves a reference to a symbol by looking at the paths of its symbols one after another,
so a path that is no text on the way to the symbol is a failure; the title of a link is whatever the
catalog gives.  Only a text can be searched for references, and only texts can be joined.
-/

namespace ValueDocs
namespace Loose

/-- Where a reference leads, and the title as the catalog gives it. -/
structure Link where
  destination : String
  title : Json
  deriving DecidableEq, Inhabited

/-- Resolves a reference written in the documentation of a path, if the catalog can be read. -/
abbrev Resolver := Reference → (contextPath : String) → Outcome (Option Link)

end Loose

namespace Catalog

/-- The article a reference names, with or without the module before it. -/
def articleName (c : Catalog) (target : String) : List Char :=
  let name := trimSlashes target.toList
  let module := c.module.display.toList ++ ['/']
  if module.isPrefixOf name then name.drop module.length else name

/-- Resolves references against the symbols and articles of a catalog. -/
def resolver (c : Catalog) : Loose.Resolver := fun reference _ =>
  match reference.kind with
  | .symbol => do
    return (← c.find (.str reference.target)).map fun s => ⟨s.pathText, s.title⟩
  | .article =>
    let name := String.ofList (c.articleName reference.target)
    if name ∈ c.articles.filterMap Json.string? then
      .ok (some ⟨"/" ++ c.module.display ++ "/" ++ name, .str name⟩)
    else .ok none

end Catalog

namespace Loose.Resolution

/-- Something with the diagnostics met on the way, in order. -/
abbrev Reported (α : Type) := α × List Diagnostic

/-- Something done to each item, with all the diagnostics in order. -/
def mapReported (f : α → Outcome (Reported β)) : List α → Outcome (Reported (List β))
  | [] => .ok ([], [])
  | x :: xs => do
    let (y, ds) ← f x
    let (ys, es) ← mapReported f xs
    return (y :: ys, ds ++ es)

/-- The place of a reference on the page; without a place in the block, that of the block. -/
def referenceRange (block : Block) (r : Reference) : Outcome (Option Span) := do
  match ← block.positionOf? r.start, ← block.positionOf? r.stop with
  | some lower, some upper => return some ⟨lower, upper⟩
  | _, _ => return block.range

/-- The diagnostic for a reference that leads nowhere. -/
def unresolved (block : Block) (r : Reference) (contextPath : String) (source : Json) :
    Outcome Diagnostic := do
  return {
    kind := .unresolvedReference
    summary := .str (ValueDocs.Resolution.unresolvedSummary r.target contextPath)
    source
    range := ← referenceRange block r }

/-- The segment of a reference, and a diagnostic if it leads nowhere. -/
def segmentOf (resolver : Resolver) (contextPath : String) (source : Json) (block : Block)
    (r : Reference) : Outcome (Reported Segment) := do
  match ← resolver r contextPath with
  | some link => return (⟨.reference, link.title, .str link.destination⟩, [])
  | none =>
    let kind := match r.kind with
      | .symbol => .codeVoice
      | .article => .text
    return (⟨kind, .str r.target, .null⟩, [← unresolved block r contextPath source])

/-- The plain text before something, if there is any. -/
def plain (text : List Char) : List Segment :=
  if text.isEmpty then [] else [⟨.text, .str (String.ofList text), .null⟩]

/-- The segments of a text whose references are those of the list, from the offset `cursor` on. -/
def segments (segmentOf : Reference → Outcome (Reported Segment)) (cursor : Nat)
    (text : List Char) : List Reference → Outcome (Reported (List Segment))
  | [] => .ok (plain text, [])
  | r :: rs => do
    let (segment, ds) ← segmentOf r
    let (more, es) ← segments segmentOf r.stop (text.drop (r.stop - cursor)) rs
    return (plain (text.take (r.start - cursor)) ++ segment :: more, ds ++ es)

/-- A block with its inline segments. -/
def resolveBlock (resolver : Resolver) (contextPath : String) (source : Json) (block : Block) :
    Outcome (Reported Block) := do
  if block.kind = .code then return (block, [])
  let text ← block.text.text
  let (inlines, ds) ← segments (segmentOf resolver contextPath source block) 0 text.toList
    (Reference.find text)
  return ({ block with inlines }, ds)

/-- A variant with its content resolved; a block without a source has that of its value. -/
def resolveEntry (resolver : Resolver) (contextPath : String) (source : Json)
    (e : Json × List Block) : Outcome (Reported (Json × List Block)) := do
  let (blocks, ds) ← mapReported
    (fun b => resolveBlock resolver contextPath (b.source.orElse source) b) e.2
  return ((e.1, blocks), ds)

/-- A reconciled value with its content resolved, variant by variant in order. -/
def resolveValue (resolver : Resolver) (contextPath : String) (v : ReconciledValue) :
    Outcome (Reported ReconciledValue) := do
  if v.hasContent then
    let (entries, ds) ← mapReported (resolveEntry resolver contextPath v.source)
      (← v.content.sorted)
    return ({ v with content := ⟨entries⟩ }, ds)
  else return (v, [])

/-- Reconciled values with their content resolved. -/
def resolveAll (resolver : Resolver) (contextPath : String) (vs : List ReconciledValue) :
    Outcome (Reported (List ReconciledValue)) :=
  mapReported (resolveValue resolver contextPath) vs

/-- The plain text of a block, where a reference shows its title. -/
def blockText (b : Block) : Outcome String :=
  if b.inlines.isEmpty then b.text.text
  else do return String.join (← b.inlines.mapM (·.text.text))

/-- The plain text of blocks. -/
def plainText (blocks : List Block) : Outcome String := do
  return "\n\n".intercalate (← blocks.mapM blockText)

end Loose.Resolution
end ValueDocs
