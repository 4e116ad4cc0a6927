import ValueDocs.Text.Utf8
import ValueDocs.Yaml.ScalarText

/-!
# Yaml/Token — the parts that the notation is made of

Blocks are bounded by tokens of their own, which stand for changes of indentation.  Anchors,
aliases, tags and directives are read here; they are the tokens with a notation of their own.
-/

namespace ValueDocs.Yaml

/-- A tag as it is written: a handle, unless it is written in full, and a suffix. -/
structure TagText where
  handle : Option (List Char)
  suffix : List Char
  deriving DecidableEq, Repr

/-- A line for the reader of a document. -/
inductive Directive where
  /-- The major version of the notation. -/
  | version (major : Nat)
  /-- What a handle of tags stands for. -/
  | handle (name : List Char) (expansion : List Char)
  | other
  deriving DecidableEq, Repr

/-- A part of the notation. -/
inductive Token where
  | directive (directive : Directive)
  | documentStart
  | documentEnd
  | blockSequenceStart
  | blockMappingStart
  | blockEnd
  | flowSequenceStart
  | flowSequenceEnd
  | flowMappingStart
  | flowMappingEnd
  | blockEntry
  | flowEntry
  | key
  | value
  | alias (name : List Char)
  | anchor (name : List Char)
  | tag (tag : TagText)
  | scalar (text : List Char) (bare : Bool)
  deriving DecidableEq, Repr

namespace Token

/-! ## Names -/

/-- The name of an anchor or an alias; the place is at its mark. -/
def name? (c : Cursor) : Option (List Char × Cursor) :=
  let (name, c) := c.advance.takeWhile isNameChar
  let ends := c.peek.all fun ch => isGapChar ch || "?:,]\x7d%@".toList.contains ch || ch == '\x60'
  if name.isEmpty || !ends then none else some (name, c)

/-! ## Tags -/

/-- Whether a character may stand in a tag. -/
def isTagChar (c : Char) : Bool :=
  (isNameChar c && c != '-') || "-;/?:@&=+$,_.!~*'()[]%".toList.contains c

/-- The bytes of escapes at a place, and the place after them. -/
def tagBytes : Nat → Cursor → Option (List UInt8 × Cursor)
  | 0, c => some ([], c)
  | steps + 1, c =>
    match c.left with
    | '%' :: a :: b :: _ => do
      let byte := 16 * (← Json.hexValue? a) + (← Json.hexValue? b)
      let (bytes, c) ← tagBytes steps (c.advanceBy 3)
      return (UInt8.ofNat byte :: bytes, c)
    | '%' :: _ => none
    | _ => some ([], c)

/-- The characters of a tag. -/
def tagChars : Nat → Cursor → Option (List Char × Cursor)
  | 0, _ => none
  | steps + 1, c =>
    match c.peek with
    | none => some ([], c)
    | some ch =>
      if ch == '%' then do
        let (bytes, c) ← tagBytes c.left.length c
        let chars ← (Text.Utf8.decode bytes).toOption
        let (more, c) ← tagChars steps c
        return (chars ++ more, c)
      else if isTagChar ch then do
        let (more, c) ← tagChars steps c.advance
        return (ch :: more, c)
      else some ([], c)

/-- The text of a tag, which is not empty. -/
def tagText? (c : Cursor) : Option (List Char × Cursor) := do
  let (text, stop) ← tagChars (c.left.length + 1) c
  if stop.index = c.index then none else some (text, stop)

/-- A handle of tags: one mark, or two with a name between them. -/
def tagHandle? (c : Cursor) : Option (List Char × Cursor) :=
  if !c.isAt '!' then none
  else
    let c := c.advance
    if c.isAt ' ' then some (['!'], c)
    else
      let (name, c) := c.takeWhile isNameChar
      if c.isAt '!' then some ('!' :: name ++ ['!'], c.advance) else none

/-- A tag; the place is at its mark. -/
def tag? (c : Cursor) : Option (Token × Cursor) := do
  let (written, c) ←
    if c.peekAt 1 = some '<' then do
      let (suffix, c) ← tagText? (c.advanceBy 2)
      if !c.isAt '>' then none
      pure (TagText.mk none suffix, c.advance)
    else if isGap (c.peekAt 1) then pure (TagText.mk none ['!'], c.advance)
    else do
      let word := (c.left.drop 1).takeWhile fun ch => !isWordEnd (some ch)
      let (handle, c) ← if word.contains '!' then tagHandle? c else some (['!'], c.advance)
      let (suffix, c) ← tagText? c
      pure (TagText.mk (some handle) suffix, c)
  if !isWordEnd c.peek then none
  return (.tag written, c)

/-! ## Directives -/

/-- The digits at a place, of which there is one at least. -/
def digits? (c : Cursor) : Option (Nat × Cursor) :=
  let (digits, c) := c.takeWhile Json.isAsciiDigit
  if digits.isEmpty || Text.digitLimit < digits.length then none
  else some (Json.ofAsciiDigits digits, c)

/-- The rest of a directive that tells the version. -/
def version? (c : Cursor) : Option (Directive × Cursor) := do
  let (major, c) ← digits? c.skipSpaces
  if !c.isAt '.' then none
  let (_, c) ← digits? c.advance
  if !isWordEnd c.peek then none
  return (.version major, c)

/-- The rest of a directive that names a handle of tags. -/
def handle? (c : Cursor) : Option (Directive × Cursor) := do
  let (name, c) ← tagHandle? c.skipSpaces
  if !c.isAt ' ' then none
  let (expansion, c) ← tagText? c.skipSpaces
  if !isWordEnd c.peek then none
  return (.handle name expansion, c)

/-- A directive; the place is at its mark. -/
def directive? (c : Cursor) : Option (Token × Cursor) := do
  let (name, c) := c.advance.takeWhile isNameChar
  if name.isEmpty || !isWordEnd c.peek then none
  let (read, c) ←
    if name = "YAML".toList then version? c
    else if name = "TAG".toList then handle? c
    else pure (.other, c.skipWhile (!isBreak ·))
  return (.directive read, ← c.endLine?)

end Token
end ValueDocs.Yaml
