import ValueDocs.Diagnostic
import ValueDocs.Reference
import ValueDocs.Value.Reconciled

/-!
# Resolution — references in authored content turned into links

Each block of prose is cut at its references.  A reference that resolves becomes a link under its
title; one that does not is reported where it stands and degrades to code voice or plain text.
Code is left alone.  Nothing but the inline segments of a block changes.
-/

namespace ValueDocs

/-- Where a reference leads, and the title it is shown by. -/
structure Link where
  destination : String
  title : String
  deriving DecidableEq, Repr, Inhabited

/-- Resolves a reference written in the documentation of a path. -/
abbrev Resolver := Reference → (contextPath : String) → Option Link

namespace Resolution

/-- Something with the diagnostics met on the way, in order. -/
abbrev Reported (α : Type) := α × List Diagnostic

/-- Something done to each item, with all the diagnostics in order. -/
def mapReported (f : α → Reported β) : List α → Reported (List β)
  | [] => ([], [])
  | x :: xs =>
    let (y, ds) := f x
    let (ys, es) := mapReported f xs
    (y :: ys, ds ++ es)

/-- The summary for a reference that leads nowhere. -/
def unresolvedSummary (target contextPath : String) : String :=
  "'" ++ target ++ "' doesn't exist at '" ++ contextPath ++ "'"

/-- The place of a reference on the page; without a place in the block, that of the block. -/
def referenceRange (block : Block) (r : Reference) : Option Range :=
  match block.positionOf? r.start, block.positionOf? r.stop with
  | some lower, some upper => some ⟨lower, upper⟩
  | _, _ => block.range

/-- The diagnostic for a reference that leads nowhere. -/
def unresolved (block : Block) (r : Reference) (contextPath : String) (source : Option String) :
    Diagnostic :=
  { kind := .unresolvedReference
    summary := unresolvedSummary r.target contextPath
    source
    range := referenceRange block r }

/-- The segment of a reference, and a diagnostic if it leads nowhere. -/
def segmentOf (resolver : Resolver) (contextPath : String) (source : Option String) (block : Block)
    (r : Reference) : Reported Segment :=
  match resolver r contextPath with
  | some link => (⟨.reference, link.title, some link.destination⟩, [])
  | none =>
    let kind := match r.kind with
      | .symbol => .codeVoice
      | .article => .text
    (⟨kind, r.target, none⟩, [unresolved block r contextPath source])

/-- The plain text before something, if there is any. -/
def plain (text : List Char) : List Segment :=
  if text.isEmpty then [] else [⟨.text, String.ofList text, none⟩]

/-- The segments of a text whose references are those of the list, from the offset `cursor` on. -/
def segments (segmentOf : Reference → Reported Segment) (cursor : Nat) (text : List Char) :
    List Reference → Reported (List Segment)
  | [] => (plain text, [])
  | r :: rs =>
    let (segment, ds) := segmentOf r
    let (more, es) := segments segmentOf r.stop (text.drop (r.stop - cursor)) rs
    (plain (text.take (r.start - cursor)) ++ segment :: more, ds ++ es)

/-- A block with its inline segments. -/
def resolveBlock (resolver : Resolver) (contextPath : String) (source : Option String)
    (block : Block) : Reported Block :=
  if block.kind = .code then (block, [])
  else
    let (inlines, ds) := segments (segmentOf resolver contextPath source block) 0
      block.text.toList (Reference.find block.text)
    ({ block with inlines }, ds)

/-- A reconciled value with its content resolved; a block without a source has the value's. -/
def resolveValue (resolver : Resolver) (contextPath : String) (v : ReconciledValue) :
    Reported ReconciledValue :=
  if v.hasContent then
    let (entries, ds) := mapReported (fun (tag, blocks) =>
      let (blocks, ds) := mapReported
        (fun b => resolveBlock resolver contextPath (givenSource b v) b) blocks
      ((tag, blocks), ds)) v.content.sorted
    ({ v with content := ⟨entries⟩ }, ds)
  else (v, [])
where
  /-- The source of a block, or that of its value. -/
  givenSource (b : Block) (v : ReconciledValue) : Option String :=
    match b.source with
    | some "" | none => v.source
    | some s => some s

/-- Reconciled values with their content resolved. -/
def resolveAll (resolver : Resolver) (contextPath : String) (vs : List ReconciledValue) :
    Reported (List ReconciledValue) :=
  mapReported (resolveValue resolver contextPath) vs

/-- The plain text of a block, where a reference shows its title. -/
def blockText (b : Block) : String :=
  if b.inlines.isEmpty then b.text else String.join (b.inlines.map (·.text))

/-- The plain text of blocks. -/
def plainText (blocks : List Block) : String := "\n\n".intercalate (blocks.map blockText)

end Resolution
end ValueDocs
