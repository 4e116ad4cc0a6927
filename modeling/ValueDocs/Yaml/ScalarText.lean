import ValueDocs.Json.Parse
import ValueDocs.Yaml.Cursor

/-!
# Yaml/ScalarText — scalars as they are written

A scalar is bare, in single or double quotes, or a block of lines below a mark.  Outside of blocks a
break between lines of text counts as a space, and each empty line as a break.
-/

namespace ValueDocs.Yaml

/-- The text that breaks between two lines of a scalar stand for. -/
def foldedBreaks (first : Char) (more : List Char) : List Char :=
  if first ≠ '\n' then first :: more else if more.isEmpty then [' '] else more

/-! ## Bare -/

/-- Whether a character may bound an item within a flow collection. -/
def isFlowMark (c : Char) : Bool := ",[]\x7b\x7d".toList.contains c

/-- Whether a bare scalar may start here. -/
def startsBare (inFlow : Bool) : List Char → Bool
  | [] => false
  | c :: s =>
    if c == '-' || (!inFlow && (c == '?' || c == ':')) then !isGap s.head?
    else !(isGapChar c || "-?:,[]\x7b\x7d#&*!|>'\"%@".toList.contains c || c == '\x60')

/-- The characters of a bare scalar up to a gap or a mark that ends it. -/
def bareRun (inFlow : Bool) : List Char → List Char
  | [] => []
  | c :: s =>
    let stops := isGapChar c ||
      (c == ':' && (isGap s.head? || (inFlow && s.head?.any isFlowMark))) ||
      (inFlow && (c == '?' || isFlowMark c))
    if stops then [] else c :: bareRun inFlow s

/-- What stands between two parts of a bare scalar. -/
structure BareGap where
  /-- The text it stands for; none before the mark of a document. -/
  text : Option (List Char)
  stop : Cursor
  /-- Whether it holds a break. -/
  broken : Bool

/-- The breaks after the first one, and the place after them; none before the mark of a
document. -/
def bareBreaks : Nat → Cursor → Option (List Char) × Cursor
  | 0, c => (some [], c)
  | steps + 1, c =>
    if c.isAt ' ' then bareBreaks steps c.advance
    else match c.lineBreak? with
      | none => (some [], c)
      | some (b, c) =>
        if c.isAtDocumentMark then (none, c)
        else
          let (more, c) := bareBreaks steps c
          (more.map (b :: ·), c)

/-- What stands after a part of a bare scalar. -/
def bareGap (c : Cursor) : BareGap :=
  let (spaces, c) := c.takeWhile (· == ' ')
  match c.lineBreak? with
  | none => ⟨some spaces, c, false⟩
  | some (b, c) =>
    if c.isAtDocumentMark then ⟨none, c, true⟩
    else
      let (more, c) := bareBreaks c.left.length c
      ⟨more.map (foldedBreaks b), c, true⟩

/-- A scalar that has been read. -/
structure ScalarText where
  text : List Char
  stop : Cursor
  /-- Whether the scalar ends with a break behind it. -/
  broken : Bool := false

/-- The rest of a bare scalar, after the text so far and the gap that follows it. -/
def bareParts (inFlow : Bool) (indent : Int) : Nat → List Char → List Char → Bool → Cursor →
    ScalarText
  | 0, text, _, broken, c => ⟨text, c, broken⟩
  | steps + 1, text, gap, broken, c =>
    let run := if c.isAt '#' then [] else bareRun inFlow c.left
    if run.isEmpty then ⟨text, c, broken⟩
    else
      let text := text ++ gap ++ run
      let next := bareGap (c.advanceBy run.length)
      let c := next.stop
      let gap := next.text.getD []
      if gap.isEmpty || c.isAt '#' || (!inFlow && (c.column : Int) < indent) then
        ⟨text, c, next.broken⟩
      else bareParts inFlow indent steps text gap next.broken c

/-- A bare scalar within a block whose column is `indent`. -/
def bareScalar (inFlow : Bool) (indent : Int) (c : Cursor) : ScalarText :=
  bareParts inFlow (indent + 1) c.left.length [] [] false c

/-! ## Quoted -/

/-- The letters that name a character in double quotes. -/
def escapeLetters : List (Char × Char) := [
    ('0', '\x00'), ('a', '\x07'), ('b', '\x08'), ('t', '\t'), ('\t', '\t'), ('n', '\n'),
    ('v', '\x0b'), ('f', '\x0c'), ('r', '\r'), ('e', '\x1b'), (' ', ' '), ('"', '"'), ('\\', '\\'),
    ('/', '/'), ('N', '\u0085'), ('_', '\u00a0'), ('L', '\u2028'), ('P', '\u2029')]

/-- How many hexadecimal digits follow an escape letter. -/
def escapeWidth? : Char → Option Nat
  | 'x' => some 2
  | 'u' => some 4
  | 'U' => some 8
  | _ => none

/-- The breaks at a place within quotes, and the place after them and the spaces around them; none
before the mark of a document. -/
def quotedBreaks : Nat → Cursor → Option (List Char × Cursor)
  | 0, c => some ([], c)
  | steps + 1, c =>
    if c.isAtDocumentMark then none
    else
      let c := c.skipWhile isSpaceOrTab
      match c.lineBreak? with
      | none => some ([], c)
      | some (b, c) => (quotedBreaks steps c).map fun (more, c) => (b :: more, c)

/-- What an escape stands for; the place is after the backslash. -/
def escape? (c : Cursor) : Option (List Char × Cursor) := do
  let letter ← c.peek
  match escapeLetters.lookup letter, escapeWidth? letter with
  | some ch, _ => return ([ch], c.advance)
  | none, some width =>
    let (digits, c) := c.advance.take width
    let values ← digits.mapM Json.hexValue?
    let code := values.foldl (fun n d => 16 * n + d) 0
    if values.length = width ∧ code.isValidChar then some ([Char.ofNat code], c) else none
  | none, none =>
    match c.lineBreak? with
    | some (_, c) => quotedBreaks (c.left.length + 1) c
    | none => none

/-- What a gap within quotes stands for; none at the end of the text. -/
def quotedGap? (c : Cursor) : Option (List Char × Cursor) :=
  let (spaces, c) := c.takeWhile isSpaceOrTab
  match c.lineBreak? with
  | none => if c.left.isEmpty then none else some (spaces, c)
  | some (b, c) =>
    (quotedBreaks (c.left.length + 1) c).map fun (more, c) => (foldedBreaks b more, c)

/-- The rest of a scalar in quotes after the text so far; the place is within the quotes. -/
def quotedParts (double : Bool) : Nat → List Char → Cursor → Option ScalarText
  | 0, _, _ => none
  | steps + 1, text, c =>
    match c.left with
    | [] => none
    | ch :: rest =>
      if isGapChar ch then do
        let (gap, c) ← quotedGap? c
        quotedParts double steps (text ++ gap) c
      else if double && ch == '\\' then do
        let (escaped, c) ← escape? c.advance
        quotedParts double steps (text ++ escaped) c
      else if ch == (if double then '"' else '\'') then
        if !double && rest.head? == some '\'' then
          quotedParts double steps (text ++ ['\'']) (c.advanceBy 2)
        else some ⟨text, c.advance, false⟩
      else quotedParts double steps (text ++ [ch]) c.advance

/-- A scalar in quotes; the place is at the opening one. -/
def quotedScalar? (double : Bool) (c : Cursor) : Option ScalarText :=
  quotedParts double (c.left.length + 1) [] c.advance

/-! ## Blocks of lines -/

/-- What happens to the breaks at the end of a block. -/
inductive Chomping where
  /-- The first one stays. -/
  | clip
  | strip
  | keep
  deriving DecidableEq, Repr

/-- The header of a block after its mark: what happens to the breaks at its end, and how far in its
lines are. -/
structure BlockHeader where
  chomping : Chomping := .clip
  increment : Option Nat := none

/-- The chomping a sign asks for. -/
def chomping? : Option Char → Option Chomping
  | some '+' => some .keep
  | some '-' => some .strip
  | _ => none

/-- The increment a digit asks for; zero is none. -/
def increment? (next : Option Char) : Option (Option Nat) :=
  match next with
  | some ch =>
    if '0' ≤ ch && ch ≤ '9' then some (if ch = '0' then none else some (ch.toNat - 48)) else none
  | none => none

/-- The header of a block, and the place on the next line. -/
def blockHeader? (c : Cursor) : Option (BlockHeader × Cursor) := do
  let (header, c) ← match chomping? c.peek with
    | some chomping =>
      let c := c.advance
      match increment? c.peek with
      | some n => do
        let n ← n
        pure ({ chomping, increment := some n }, c.advance)
      | none => pure ({ chomping }, c)
    | none =>
      match increment? c.peek with
      | some n => do
        let n ← n
        let c := c.advance
        match chomping? c.peek with
        | some chomping => pure ({ chomping, increment := some n }, c.advance)
        | none => pure ({ increment := some n }, c)
      | none => pure ({}, c)
  if !isWordEnd c.peek then none
  return (header, ← c.endLine?)

/-- The empty lines at the start of a block, the farthest column of a space in them, and the place
after them. -/
def blockIndent : Nat → Nat → Cursor → List Char × Nat × Cursor
  | 0, farthest, c => ([], farthest, c)
  | steps + 1, farthest, c =>
    if c.isAt ' ' then
      let c := c.advance
      blockIndent steps (max farthest c.column) c
    else match c.lineBreak? with
      | some (b, c) =>
        let (more, farthest, c) := blockIndent steps farthest c
        (b :: more, farthest, c)
      | none => ([], farthest, c)

/-- The place after spaces up to a column. -/
def skipIndent (indent : Nat) : Nat → Cursor → Cursor
  | 0, c => c
  | steps + 1, c =>
    if c.column < indent && c.isAt ' ' then skipIndent indent steps c.advance else c

/-- The empty lines within a block, and the place after them and the indent of the next line. -/
def blockBreaks (indent : Nat) : Nat → Cursor → List Char × Cursor
  | 0, c => ([], c)
  | steps + 1, c =>
    let c := skipIndent indent indent c
    match c.lineBreak? with
    | some (b, c) =>
      let (more, c) := blockBreaks indent steps c
      (b :: more, c)
    | none => ([], c)

/-- The text that the breaks between two lines of a block stand for. -/
def blockGap (folded afterText beforeText : Bool) (first : List Char) (more : List Char) :
    List Char :=
  if folded && first == ['\n'] && afterText && beforeText then
    if more.isEmpty then ' ' :: more else more
  else first ++ more

/-- The lines of a block from a place on, after the breaks that come before it, with the last break
and the empty lines after it. -/
def blockLines (folded : Bool) (indent : Nat) : Nat → List Char → Cursor →
    List Char × List Char × List Char × Cursor
  | 0, breaks, c => ([], [], breaks, c)
  | steps + 1, breaks, c =>
    if c.column ≠ indent || c.left.isEmpty then ([], [], breaks, c)
    else
      let startsWithText := !c.peek.any isSpaceOrTab
      let (line, c) := c.takeWhile (!isBreak ·)
      let (first, c) := match c.lineBreak? with
        | some (b, c) => ([b], c)
        | none => ([], c)
      let (more, c) := blockBreaks indent (c.left.length + 1) c
      if c.column = indent && !c.left.isEmpty then
        let gap := blockGap folded startsWithText (!c.peek.any isSpaceOrTab) first more
        let (rest, last, tail, c) := blockLines folded indent steps [] c
        (breaks ++ line ++ gap ++ rest, last, tail, c)
      else (breaks ++ line, first, more, c)

/-- A block of lines below a block whose column is `indent`; the place is at the mark. -/
def blockScalar? (folded : Bool) (indent : Int) (c : Cursor) : Option ScalarText := do
  let (header, c) ← blockHeader? c.advance
  let least := max 1 (indent + 1).toNat
  let (column, breaks, c) := match header.increment with
    | some n =>
      let column := least + n - 1
      let (breaks, c) := blockBreaks column (c.left.length + 1) c
      (column, breaks, c)
    | none =>
      let (breaks, farthest, c) := blockIndent (c.left.length + 1) 0 c
      (max least farthest, breaks, c)
  let (text, last, tail, c) := blockLines folded column (c.left.length + 1) breaks c
  let ending := match header.chomping with
    | .strip => []
    | .clip => last
    | .keep => last ++ tail
  return ⟨text ++ ending, c, true⟩

end ValueDocs.Yaml
