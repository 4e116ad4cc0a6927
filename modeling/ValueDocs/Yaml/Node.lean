import ValueDocs.Json.Print
import ValueDocs.Yaml.Scalar
import ValueDocs.Yaml.Token

/-!
# Yaml/Node — the nodes of a document

A node is a scalar of a kind, a sequence, or a mapping of nodes to nodes.  Its data tree names each
field by its key.  A mapping may take in the fields of others; they come first, and its own replace
them.
-/

namespace ValueDocs.Yaml

/-- A node of a document. -/
inductive Node where
  | scalar (kind : ScalarKind) (text : List Char)
  | sequence (items : List Node)
  | mapping (pairs : List (Node × Node))
  deriving Repr, Inhabited

namespace Node

/-- The node that is left out. -/
def empty : Node := .scalar .null []

/-! ## Tags -/

/-- What the tags of the notation itself start with. -/
def tagStart : List Char := "tag:yaml.org,2002:".toList

/-- The names of the kinds of scalars in tags. -/
def kindNames : List (String × ScalarKind) :=
  [("null", .null), ("bool", .bool), ("int", .whole), ("float", .float), ("timestamp", .timestamp),
    ("merge", .merge), ("value", .default), ("str", .text)]

/-- Whether a tag leaves it to the node what it is. -/
def isOpenTag (tag : Option (List Char)) : Bool := tag.all (· == ['!'])

/-- Whether a tag names a kind. -/
def isNamed (name : String) (tag : Option (List Char)) : Bool :=
  tag == some (tagStart ++ name.toList)

/-- A scalar with a tag, if the tag is known. -/
def ofScalar? (tag : Option (List Char)) (text : List Char) (bare : Bool) : Option Node :=
  if isOpenTag tag then some (.scalar (if bare || tag.isSome then kindOf text else .text) text)
  else (kindNames.find? fun (name, _) => isNamed name tag).map fun (_, kind) => .scalar kind text

/-- A sequence with a tag, if it can have the tag. -/
def ofItems? (tag : Option (List Char)) (items : List Node) : Option Node :=
  if isOpenTag tag || isNamed "seq" tag then some (.sequence items) else none

/-- A mapping with a tag, if it can have the tag. -/
def ofPairs? (tag : Option (List Char)) (pairs : List (Node × Node)) : Option Node :=
  if isOpenTag tag || isNamed "map" tag then some (.mapping pairs) else none

/-! ## Data trees -/

/-- Whether a key stands for the fields merged into a mapping. -/
def isMerge : Node → Bool
  | .scalar .merge _ => true
  | _ => false

/-- The name of a field with a key; a collection is no key. -/
def keyName? : Json → Option String
  | .str s => some s
  | .arr _ | .obj _ => none
  | j => some j.compact

/-- The name of the field of a scalar key. -/
def scalarName (kind : ScalarKind) (text : List Char) : Outcome String := do
  orMalformed (keyName? (← scalarValue (if kind = .default then .text else kind) text))

mutual

/-- The data tree of a node. -/
def toJson : Node → Outcome Json
  | .scalar kind text => scalarValue kind text
  | .sequence items => do return .arr (← itemTrees items)
  | .mapping pairs => do return .obj (Json.ofFields ((← mergedFields pairs) ++ (← ownFields pairs)))

/-- The data trees of the items of a sequence. -/
def itemTrees : List Node → Outcome (List Json)
  | [] => .ok []
  | n :: ns => do return (← n.toJson) :: (← itemTrees ns)

/-- The fields of a mapping that are not merged into it. -/
def ownFields : List (Node × Node) → Outcome Json.Fields
  | [] => .ok []
  | (k, v) :: rest => do
    if k.isMerge then ownFields rest
    else
      let name ← match k with
        | .scalar kind text => scalarName kind text
        | _ => .error .malformedYaml
      return (name, ← v.toJson) :: (← ownFields rest)

/-- The fields merged into a mapping. -/
def mergedFields : List (Node × Node) → Outcome Json.Fields
  | [] => .ok []
  | (k, v) :: rest => do
    if k.isMerge then return (← fieldsToMerge v) ++ (← mergedFields rest)
    else mergedFields rest

/-- The fields that a node gives to be merged: those of a mapping, or of the mappings in a
sequence, the last one first. -/
def fieldsToMerge : Node → Outcome Json.Fields
  | .scalar .. => .error .malformedYaml
  | .mapping pairs => do return (← mergedFields pairs) ++ (← ownFields pairs)
  | .sequence items => do return (← itemFields items).reverse.flatten

/-- The fields of the mappings in a sequence. -/
def itemFields : List Node → Outcome (List Json.Fields)
  | [] => .ok []
  | n :: ns => do
    let fields ← match n with
      | .mapping pairs => do pure ((← mergedFields pairs) ++ (← ownFields pairs))
      | _ => .error .malformedYaml
    return fields :: (← itemFields ns)

end

end Node
end ValueDocs.Yaml
