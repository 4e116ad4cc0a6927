import ValueDocs.Yaml.Node

/-!
# Yaml/Document — the one document of a file

The nodes of a document are read from its tokens.  An anchor names a node for aliases after it, and
directives say what the handles of tags stand for.  More than one document in a file is malformed.
-/

namespace ValueDocs.Yaml

/-- What is left of the tokens, and what names stand for so far. -/
structure Source where
  left : List Token
  /-- What the handles of tags stand for. -/
  handles : List (List Char × List Char) := []
  /-- The nodes that anchors name; none while the node is being read. -/
  anchors : List (List Char × Option Node) := []
  deriving Repr

/-- A step that reads from the tokens; it has no result where they are malformed. -/
abbrev NodeReader := StateT Source Option

namespace NodeReader

/-! ## Tokens -/

/-- The next token. -/
def next : NodeReader (Option Token) := do return (← get).left.head?

/-- Goes on past the next token. -/
def skip : NodeReader Unit := modify fun s => { s with left := s.left.drop 1 }

/-- Whether one of some tokens is next. -/
def isAt (tokens : List Token) : NodeReader Bool := do return (← next).any tokens.contains

/-- Goes on past a token if it is next, and tells whether it was. -/
def accept (token : Token) : NodeReader Bool := do
  let found ← isAt [token]
  if found then skip
  return found

/-- Goes on past a token, which must be next. -/
def expect (token : Token) : NodeReader Unit := do
  if !(← accept token) then failure

/-! ## Names and tags -/

/-- The node that an anchor names, which must have been read. -/
def named (name : List Char) : NodeReader Node := do
  match (← get).anchors.lookup name with
  | some (some node) => return node
  | _ => failure

/-- Says that a node with an anchor is being read; the anchor must be new. -/
def openAnchor (name : List Char) : NodeReader Unit := do
  let s ← get
  if (s.anchors.lookup name).isSome then failure
  set { s with anchors := (name, none) :: s.anchors }

/-- Says which node an anchor names. -/
def closeAnchor (name : List Char) (node : Node) : NodeReader Unit :=
  modify fun s => { s with
    anchors := s.anchors.map fun a => if a.1 = name then (name, some node) else a }

/-- The tag that is written with a handle or in full. -/
def expand (tag : TagText) : NodeReader (List Char) := do
  match tag.handle with
  | none => return tag.suffix
  | some handle =>
    match (← get).handles.lookup handle with
    | some start => return start ++ tag.suffix
    | none => failure

/-- What stands before a node. -/
structure Properties where
  anchor : Option (List Char) := none
  tag : Option (List Char) := none

/-- The anchor that is next, if one is. -/
def anchor? : NodeReader (Option (List Char)) := do
  match ← next with
  | some (.anchor name) => do skip; return some name
  | _ => return none

/-- The tag that is next, if one is. -/
def tag? : NodeReader (Option (List Char)) := do
  match ← next with
  | some (.tag tag) => do skip; return some (← expand tag)
  | _ => return none

/-- What stands before a node: an anchor and a tag in either order. -/
def properties : NodeReader Properties := do
  match ← anchor? with
  | some name => return { anchor := some name, tag := ← tag? }
  | none =>
    match ← tag? with
    | some tag => return { anchor := ← anchor?, tag := some tag }
    | none => return {}

/-! ## Nodes -/

/-- Where a node stands, which tells the collections it may be. -/
inductive Place where
  | flow
  | item
  /-- A key or a value, which may be a sequence at the column of the key. -/
  | field
  deriving DecidableEq, Repr

mutual

/-- A node. -/
def node : Nat → Place → NodeReader Node
  | 0, _ => failure
  | steps + 1, place => do
    match ← next with
    | some (.alias name) => do skip; named name
    | _ =>
      let before ← properties
      before.anchor.forM openAnchor
      let node ← content steps place before
      before.anchor.forM (closeAnchor · node)
      return node

/-- A node after what stands before it. -/
def content : Nat → Place → Properties → NodeReader Node
  | 0, _, _ => failure
  | steps + 1, place, before => do
    match ← next with
    | some (.scalar text bare) => do skip; Node.ofScalar? before.tag text bare
    | some .flowSequenceStart => do skip; Node.ofItems? before.tag (← flowItems steps true)
    | some .flowMappingStart => do skip; Node.ofPairs? before.tag (← flowPairs steps true)
    | some .blockSequenceStart => do skip; Node.ofItems? before.tag (← blockItems steps)
    | some .blockMappingStart => do skip; Node.ofPairs? before.tag (← blockPairs steps)
    | token => do
      if place = .field && token == some .blockEntry then
        Node.ofItems? before.tag (← looseItems steps)
      else if before.anchor.isNone && before.tag.isNone then failure
      else Node.ofScalar? before.tag [] true

/-- A node, or the empty one before one of some tokens. -/
def nodeBefore : Nat → Place → List Token → NodeReader Node
  | 0, _, _ => failure
  | steps + 1, place, stops => do
    if ← isAt stops then return .empty
    node steps place

/-- The value after a key, which may be left out before one of some tokens. -/
def valueBefore : Nat → Place → List Token → NodeReader Node
  | 0, _, _ => failure
  | steps + 1, place, stops => do
    if ← accept .value then nodeBefore steps place stops
    else return .empty

/-- The items of a sequence with an indentation of its own. -/
def blockItems : Nat → NodeReader (List Node)
  | 0 => failure
  | steps + 1 => do
    if ← accept .blockEntry then
      let item ← nodeBefore steps .item [.blockEntry, .blockEnd]
      return item :: (← blockItems steps)
    else do
      expect .blockEnd
      return []

/-- The items of a sequence at the column of its key. -/
def looseItems : Nat → NodeReader (List Node)
  | 0 => failure
  | steps + 1 => do
    if ← accept .blockEntry then
      let item ← nodeBefore steps .item [.blockEntry, .key, .value, .blockEnd]
      return item :: (← looseItems steps)
    else return []

/-- The pairs of a mapping that is a block. -/
def blockPairs : Nat → NodeReader (List (Node × Node))
  | 0 => failure
  | steps + 1 => do
    if ← accept .key then
      let key ← nodeBefore steps .field [.key, .value, .blockEnd]
      let value ← valueBefore steps .field [.key, .value, .blockEnd]
      return (key, value) :: (← blockPairs steps)
    else do
      expect .blockEnd
      return []

/-- The items of a flow sequence; a key within it is a mapping of its own. -/
def flowItems : Nat → Bool → NodeReader (List Node)
  | 0, _ => failure
  | steps + 1, first => do
    if ← accept .flowSequenceEnd then return []
    if !first then
      expect .flowEntry
    if ← accept .flowSequenceEnd then return []
    let item ← if ← accept .key then do
        let key ← nodeBefore steps .flow [.value, .flowEntry, .flowSequenceEnd]
        let value ← valueBefore steps .flow [.flowEntry, .flowSequenceEnd]
        pure (.mapping [(key, value)])
      else node steps .flow
    return item :: (← flowItems steps false)

/-- The pairs of a flow mapping; a node alone is a key without a value. -/
def flowPairs : Nat → Bool → NodeReader (List (Node × Node))
  | 0, _ => failure
  | steps + 1, first => do
    if ← accept .flowMappingEnd then return []
    if !first then
      expect .flowEntry
    if ← accept .flowMappingEnd then return []
    let pair ← if ← accept .key then do
        let key ← nodeBefore steps .flow [.value, .flowEntry, .flowMappingEnd]
        let value ← valueBefore steps .flow [.flowEntry, .flowMappingEnd]
        pure (key, value)
      else do pure (← node steps .flow, .empty)
    return pair :: (← flowPairs steps false)

end

/-! ## The document -/

/-- What the handles of tags stand for unless a directive says otherwise. -/
def standardHandles : List (List Char × List Char) :=
  [(['!'], ['!']), (['!', '!'], Node.tagStart)]

/-- The directives before a document; `versioned` tells whether one has told the version. -/
def directives : Nat → Bool → NodeReader Unit
  | 0, _ => failure
  | steps + 1, versioned => do
    match ← next with
    | some (.directive d) => do
      skip
      match d with
      | .version major => do
        if versioned || major != 1 then failure
        directives steps true
      | .handle name start => do
        let s ← get
        if (s.handles.lookup name).isSome then failure
        set { s with handles := (name, start) :: s.handles }
        directives steps versioned
      | .other => directives steps versioned
    | _ => modify fun s => { s with handles := s.handles ++ standardHandles }

/-- Whether a token bounds a document. -/
def isBound : Token → Bool
  | .directive _ | .documentStart | .documentEnd => true
  | _ => false

/-- The node of the document, after the directives and the mark at its start, if it has them. -/
def root (steps : Nat) : NodeReader Node := do
  match ← next with
  | none => return .empty
  | some .documentStart | some (.directive _) => do
    directives steps false
    expect .documentStart
    if (← next).all isBound then return .empty
    node steps .item
  | some _ => do
    modify fun s => { s with handles := standardHandles }
    node steps .item

end NodeReader

/-- The node of the one document that tokens make up; no tokens are an empty node. -/
def document? (tokens : List Token) : Option Node := do
  let (node, rest) ← (NodeReader.root (3 * tokens.length + 3)).run { left := tokens }
  if rest.left.all (· == .documentEnd) then some node else none

end ValueDocs.Yaml
