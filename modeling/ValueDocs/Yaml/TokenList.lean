import ValueDocs.Yaml.Token

/-!
# Yaml/TokenList — the tokens of a text

Tokens are read from left to right.  A block opens where an item or a key stands further in than the
block around it, and closes where a line is less far in.  What may be a key on one line is
remembered until its colon comes; then the key, and with it perhaps a mapping, is put in front of
it.
-/

namespace ValueDocs.Yaml

/-- What may be a key, if a colon follows on its line. -/
structure PossibleKey where
  /-- How many tokens come before it. -/
  position : Nat
  /-- Whether nothing but a key may stand there. -/
  required : Bool
  place : Cursor
  deriving Repr

/-- What has been read of a text. -/
structure Reading where
  place : Cursor
  /-- The tokens, the last one first. -/
  tokens : List Token := []
  /-- The column of the innermost block. -/
  indent : Int := -1
  /-- The columns of the blocks around it. -/
  outer : List Int := []
  /-- How many flow collections are open. -/
  depth : Nat := 0
  /-- Whether a key may start here. -/
  keyAllowed : Bool := true
  /-- The possible key of each depth. -/
  keys : List (Nat × PossibleKey) := []
  deriving Repr

namespace Reading

/-- The reading with another token. -/
def push (r : Reading) (t : Token) : Reading := { r with tokens := t :: r.tokens }

/-- The reading with a token in front of those after the first `position`. -/
def insertAt (r : Reading) (position : Nat) (t : Token) : Reading :=
  let (after, before) := r.tokens.splitAt (r.tokens.length - position)
  { r with tokens := after ++ t :: before }

/-- The reading at another place. -/
def goTo (r : Reading) (c : Cursor) : Reading := { r with place := c }

/-- The reading with a token for the next `n` characters. -/
def take (r : Reading) (n : Nat) (t : Token) : Reading := (r.push t).goTo (r.place.advanceBy n)

/-- Whether flow collections are open. -/
def inFlow (r : Reading) : Bool := r.depth != 0

/-! ## Keys -/

/-- The possible key of this depth is none; a required one without its colon is malformed. -/
def dropKey (r : Reading) : Option Reading :=
  match r.keys.lookup r.depth with
  | some key =>
    if key.required then none
    else some { r with keys := r.keys.filter (·.1 ≠ r.depth) }
  | none => some r

/-- The number of characters a key on one line may have. -/
def keyLimit : Nat := 1024

/-- Whether a possible key is too far behind. -/
def isStale (r : Reading) (key : PossibleKey) : Bool :=
  key.place.line != r.place.line || keyLimit < r.place.index - key.place.index

/-- The possible keys that are not too far behind; a required one must not be. -/
def dropStale (r : Reading) : Option Reading :=
  if r.keys.any fun (_, key) => r.isStale key && key.required then none
  else some { r with keys := r.keys.filter fun (_, key) => !r.isStale key }

/-- Remembers that what is next may be a key. -/
def saveKey (r : Reading) : Option Reading :=
  if r.keyAllowed then do
    let required := !r.inFlow && r.indent == r.place.column
    let r ← r.dropKey
    return { r with keys := (r.depth, ⟨r.tokens.length, required, r.place⟩) :: r.keys }
  else some r

/-! ## Blocks -/

/-- Closes the blocks that are further in than a column. -/
def closeTo (column : Int) : List Int → Reading → Reading
  | [], r => r
  | outer :: more, r =>
    if column < r.indent then
      closeTo column more { r.push .blockEnd with indent := outer, outer := more }
    else r

/-- Closes the blocks that a line leaves. -/
def close (r : Reading) (column : Int) : Reading :=
  if r.inFlow then r else closeTo column r.outer r

/-- Whether a block opens at a column. -/
def opensAt (r : Reading) (column : Nat) : Bool := decide (r.indent < column)

/-- The reading within a block at a column. -/
def enter (r : Reading) (column : Nat) : Reading :=
  { r with indent := column, outer := r.indent :: r.outer }

/-- Opens a block at this place if it is further in than the block around it. -/
def openHere (r : Reading) (t : Token) : Reading :=
  if r.opensAt r.place.column then (r.enter r.place.column).push t else r

/-! ## Tokens -/

/-- The mark for the start or the end of a document. -/
def documentMark (r : Reading) (t : Token) : Option Reading := do
  let r ← (r.close (-1)).dropKey
  return { r.take 3 t with keyAllowed := false }

/-- A directive. -/
def directive (r : Reading) : Option Reading := do
  let r ← (r.close (-1)).dropKey
  let (t, c) ← Token.directive? r.place
  return { (r.push t).goTo c with keyAllowed := false }

/-- The start of a flow collection. -/
def flowStart (r : Reading) (t : Token) : Option Reading := do
  let r ← r.saveKey
  return { r.take 1 t with depth := r.depth + 1, keyAllowed := true }

/-- The end of a flow collection. -/
def flowEnd (r : Reading) (t : Token) : Option Reading := do
  let r ← r.dropKey
  if !r.inFlow then none
  return { r.take 1 t with depth := r.depth - 1, keyAllowed := false }

/-- The mark between the items of a flow collection. -/
def flowEntry (r : Reading) : Option Reading := do
  let r ← r.dropKey
  return { r.take 1 .flowEntry with keyAllowed := true }

/-- The dash of an item. -/
def blockEntry (r : Reading) : Option Reading := do
  if !r.inFlow && !r.keyAllowed then none
  let r := if r.inFlow then r else r.openHere .blockSequenceStart
  let r ← r.dropKey
  return { r.take 1 .blockEntry with keyAllowed := true }

/-- The mark of a key that may span lines. -/
def markedKey (r : Reading) : Option Reading := do
  if !r.inFlow && !r.keyAllowed then none
  let r := if r.inFlow then r else r.openHere .blockMappingStart
  let r ← r.dropKey
  return { r.take 1 .key with keyAllowed := !r.inFlow }

/-- The colon after a key. -/
def value (r : Reading) : Option Reading :=
  match r.keys.lookup r.depth with
  | some key =>
    let column := key.place.column
    let r := { r with keys := r.keys.filter (·.1 ≠ r.depth) }
    let r := r.insertAt key.position .key
    let r := if !r.inFlow && r.opensAt column then
        (r.enter column).insertAt key.position .blockMappingStart
      else r
    some { r.take 1 .value with keyAllowed := false }
  | none => do
    if !r.inFlow && !r.keyAllowed then none
    let r := if r.inFlow then r else r.openHere .blockMappingStart
    let r ← r.dropKey
    return { r.take 1 .value with keyAllowed := !r.inFlow }

/-- A token that may start a key. -/
def keyed (r : Reading) (read : Cursor → Option (Token × Cursor)) : Option Reading := do
  let r ← r.saveKey
  let (t, c) ← read r.place
  return { (r.push t).goTo c with keyAllowed := false }

/-- A name after its mark. -/
def named (r : Reading) (token : List Char → Token) : Option Reading :=
  r.keyed fun c => (Token.name? c).map fun (name, c) => (token name, c)

/-- A scalar in quotes. -/
def quoted (r : Reading) (double : Bool) : Option Reading :=
  r.keyed fun c => (quotedScalar? double c).map fun s => (.scalar s.text false, s.stop)

/-- A block of lines. -/
def block (r : Reading) (folded : Bool) : Option Reading := do
  let r ← r.dropKey
  let s ← blockScalar? folded r.indent r.place
  return { (r.push (.scalar s.text false)).goTo s.stop with keyAllowed := true }

/-- A bare scalar; a key may follow it on another line. -/
def bare (r : Reading) : Option Reading := do
  let r ← r.saveKey
  let s := bareScalar r.inFlow r.indent r.place
  return { (r.push (.scalar s.text true)).goTo s.stop with keyAllowed := s.broken }

/-- The token that starts with a character. -/
def tokenAt (r : Reading) (ch : Char) : Option Reading :=
  let c := r.place
  let marks := r.inFlow || isGap (c.peekAt 1)
  match ch with
  | '[' => r.flowStart .flowSequenceStart
  | '{' => r.flowStart .flowMappingStart
  | ']' => r.flowEnd .flowSequenceEnd
  | '}' => r.flowEnd .flowMappingEnd
  | ',' => r.flowEntry
  | '*' => r.named .alias
  | '&' => r.named .anchor
  | '!' => r.keyed Token.tag?
  | '\'' => r.quoted false
  | '"' => r.quoted true
  | _ =>
    if ch == '-' && isGap (c.peekAt 1) then r.blockEntry
    else if ch == '?' && marks then r.markedKey
    else if ch == ':' && marks then r.value
    else if (ch == '|' || ch == '>') && !r.inFlow then r.block (ch == '>')
    else if startsBare r.inFlow c.left then r.bare
    else none

/-! ## The whole text -/

/-- The place of the next token, and whether a break comes before it. -/
def skipBlank : Nat → Bool → Cursor → Cursor × Bool
  | 0, broken, c => (c, broken)
  | steps + 1, broken, c =>
    let c := c.skipSpaces.skipComment
    match c.lineBreak? with
    | some (_, c) => skipBlank steps true c
    | none => (c, broken)

/-- The reading at the next token. -/
def nextPlace (r : Reading) : Reading :=
  let c := if r.place.index = 0 && r.place.isAt '\ufeff' then r.place.advance else r.place
  let (c, broken) := skipBlank (c.left.length + 1) false c
  { r.goTo c with keyAllowed := r.keyAllowed || (broken && !r.inFlow) }

/-- The reading after one more token, where some text is left. -/
def step (r : Reading) (ch : Char) : Option Reading :=
  let c := r.place
  if c.column = 0 && ch == '%' then r.directive
  else if c.column = 0 && c.isAtMark '-' then r.documentMark .documentStart
  else if c.column = 0 && c.isAtMark '.' then r.documentMark .documentEnd
  else r.tokenAt ch

/-- The tokens of the rest of a text; each takes one character at least. -/
def rest : Nat → Reading → Option (List Token)
  | 0, _ => none
  | steps + 1, r => do
    let r ← r.nextPlace.dropStale
    match r.place.peek with
    | none =>
      let r ← (r.close (-1)).dropKey
      return r.tokens.reverse
    | some ch => rest steps (← (r.close r.place.column).step ch)

end Reading

/-- The tokens of a text. -/
def tokens? (text : List Char) : Option (List Token) :=
  Reading.rest (text.length + 1) { place := { left := text } }

end ValueDocs.Yaml
