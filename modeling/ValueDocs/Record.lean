import ValueDocs.Loose.Diagnostic

/-!
# Record — reading written records back

A record is read by its kind and written again.  Reading what is written gives the same record, but
for a range that a solution without a replacement had (`isStable`).
-/

namespace ValueDocs

/-- Whether two contents give every variant the same blocks. -/
def Loose.Variants.same (v w : Loose.Variants) : Bool :=
  v.entries.length == w.entries.length && v.entries.all fun e => w.get? e.1 == some e.2

namespace Record

/-- The kinds of records. -/
inductive Kind where
  | position
  | range
  | segment
  | block
  | documentedValue
  | declaredValue
  | variants
  | reconciledValue
  | solution
  | diagnostic
  deriving DecidableEq, Repr

/-- A record that is read. -/
inductive Reading where
  | position (p : Loose.Place)
  | range (r : Option Loose.Span)
  | segment (s : Loose.Segment)
  | block (b : Loose.Block)
  | documentedValue (v : Loose.DocumentedValue)
  | declaredValue (v : Loose.DeclaredValue)
  | variants (v : Loose.Variants)
  | reconciledValue (v : Loose.ReconciledValue)
  | solution (s : Loose.Solution)
  | diagnostic (d : Loose.Diagnostic)
  deriving DecidableEq

/-- Reads a record of a kind. -/
def read (kind : Kind) (j : Json) : Outcome Reading :=
  match kind with
  | .position => .position <$> Loose.Place.ofJson j
  | .range => .range <$> Loose.Span.ofJson? j
  | .segment => .segment <$> Loose.Segment.ofJson j
  | .block => .block <$> Loose.Block.ofJson j
  | .documentedValue => .documentedValue <$> Loose.DocumentedValue.ofJson j
  | .declaredValue => .declaredValue <$> Loose.DeclaredValue.ofJson j
  | .variants => .variants <$> Loose.Variants.ofJson j
  | .reconciledValue => .reconciledValue <$> Loose.ReconciledValue.ofJson j
  | .solution => .solution <$> Loose.Solution.ofJson j
  | .diagnostic => .diagnostic <$> Loose.Diagnostic.ofJson j

namespace Reading

/-- The data tree of a record, if its variants can be listed in order. -/
def toJson : Reading → Outcome Json
  | position p => .ok p.toJson
  | range r => .ok (Loose.Span.toJson? r)
  | segment s => .ok s.toJson
  | block b => .ok b.toJson
  | documentedValue v => .ok v.toJson
  | declaredValue v => .ok v.toJson
  | variants v => if v.isListable then .ok v.toJson else .error .wrongType
  | reconciledValue v => if v.content.isListable then .ok v.toJson else .error .wrongType
  | solution s => .ok s.toJson
  | diagnostic d => .ok d.toJson

/-- Whether two records are the same; variants may be kept in any order. -/
def same : Reading → Reading → Bool
  | variants v, variants w => v.same w
  | reconciledValue v, reconciledValue w =>
    { v with content := {} } == { w with content := {} } && v.content.same w.content
  | a, b => a == b

end Reading

/-- The record as it is written. -/
def written (kind : Kind) (j : Json) : Outcome Json := do (← read kind j).toJson

/-- Whether a record reads back from what is written of it. -/
def isStable (kind : Kind) (j : Json) : Outcome Bool := do
  return (← read kind (← written kind j)).same (← read kind j)

end Record
end ValueDocs
