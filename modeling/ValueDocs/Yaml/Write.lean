import ValueDocs.Json.Print
import ValueDocs.Yaml.Pen
import ValueDocs.Yaml.Quoting

/-!
# Yaml/Write — a configuration file from a data tree

Mappings and sequences are written as blocks, a sequence at the column of its key.  A text that
passes the width of a line goes on below, where it has a blank.  A key that does not fit on a line
has a mark of its own.
-/

namespace ValueDocs.Yaml

/-! ## Texts -/

/-- The column after which a text goes on below. -/
def lineWidth : Nat := 80

/-- The part of a text that a character belongs to: breaks, blanks or words. -/
def partOf (c : Char) : Nat := if c = '\n' then 0 else if c = ' ' then 1 else 2

/-- The parts of a text. -/
def parts (s : List Char) : List (List Char) := s.splitBy fun a b => partOf a == partOf b

/-- Whether a pen that has written a part which is one blank would rather go on below. -/
def wrapsAt (splits : Bool) (p : Pen) (part : List Char) : Bool :=
  splits && part == [' '] && lineWidth < p.column

/-- Writes the parts of a bare text. -/
def writeBareParts (indent : Nat) (splits : Bool) : Pen → List (List Char) → Pen
  | p, [] => p
  | p, part :: rest =>
    writeBareParts indent splits
      (if wrapsAt splits p part then (p.indent indent).amid else p.put part) rest

/-- Writes a bare text. -/
def writeBare (indent : Nat) (splits : Bool) (s : List Char) (p : Pen) : Pen :=
  writeBareParts indent splits (p.markApart []) (parts s)

/-- The words of a text in single quotes, where a quote is written twice. -/
def doubleQuotes (s : List Char) : List Char := s.flatMap fun c => if c = '\'' then [c, c] else [c]

/-- Writes the parts of a text in single quotes: there is one line more than there are breaks. -/
def writeSingleParts (indent : Nat) (splits : Bool) : Bool → Pen → List (List Char) → Pen
  | _, p, [] => p
  | first, p, part :: rest =>
    writeSingleParts indent splits false
      (if part.head? == some '\n' then ((part.foldl (fun p _ => p.newLine) p.newLine).indent indent)
      else if wrapsAt splits p part && !first && !rest.isEmpty then p.indent indent
      else p.put (doubleQuotes part)) rest

/-- Writes a text in single quotes. -/
def writeSingle (indent : Nat) (splits : Bool) (s : List Char) (p : Pen) : Pen :=
  (writeSingleParts indent splits true (p.markApart ['\'']) (parts s)).mark ['\'']

/-- Goes on below within double quotes, where a blank that comes first needs an escape. -/
def fold (indent : Nat) (next : Option Char) (p : Pen) : Pen :=
  let p := ((p.put ['\\']).indent indent).amid
  if next = some ' ' then p.put ['\\'] else p

/-- Writes the characters of a text in double quotes; `waiting` are those since the last escape or
the start of the line, which are still to be written. -/
def writeDoubleChars (indent : Nat) (splits : Bool) :
    Bool → List Char → Pen → List Char → Pen
  | _, waiting, p, [] => p.put waiting
  | first, waiting, p, c :: s =>
    let folds := splits && !first && !s.isEmpty
    match escapeOf? c with
    | some e =>
      let p := (p.put waiting).put e
      writeDoubleChars indent splits false []
        (if folds && lineWidth + 1 < p.column then fold indent s.head? p else p) s
    | none =>
      if folds && (c == ' ' || waiting.isEmpty) && lineWidth < p.column + waiting.length then
        writeDoubleChars indent splits false [c] (fold indent (some c) (p.put waiting)) s
      else writeDoubleChars indent splits false (waiting ++ [c]) p s

/-- Writes a text in double quotes. -/
def writeDouble (indent : Nat) (splits : Bool) (s : List Char) (p : Pen) : Pen :=
  (writeDoubleChars indent splits true [] (p.markApart ['"']) s).mark ['"']

/-- Writes a text; `splits` tells whether it may go on below. -/
def writeText (indent : Nat) (splits : Bool) (s : List Char) : Pen → Pen :=
  match quoting s with
  | .bare => writeBare indent splits s
  | .single => writeSingle indent splits s
  | .double => writeDouble indent splits s

/-! ## Trees -/

/-- How floating-point numbers are written: always with a point. -/
def floatText (x : Binary64) : String :=
  match x with
  | .infinite negative => if negative then "-.inf" else ".inf"
  | .notANumber => ".nan"
  | x =>
    let s := (Json.compact (.float x)).toList
    if s.contains '.' || !s.contains 'e' then String.ofList s
    else String.ofList (s.flatMap fun c => if c = 'e' then ".0e".toList else [c])

/-- Writes a value that is no block. -/
def writeScalar (indent : Nat) : Json → Pen → Pen
  | .str s, p => writeText indent true s.toList p
  | .float x, p => writeBare indent true (floatText x).toList p
  | .arr _, p => p.markApart "[]".toList
  | .obj _, p => p.markApart "\x7b\x7d".toList
  | j, p => writeBare indent true j.compact.toList p

/-- How much further in a block is than the one around it. -/
def indentStep : Nat := 2

/-- Writes a key and the mark after it. -/
def writeKey (indent : Nat) (name : List Char) (p : Pen) : Pen :=
  let p := p.indent indent
  if isLineKey name then (writeText (indent + indentStep) false name p).mark [':']
  else
    ((writeText (indent + indentStep) true name (p.markBlock '?')).indent indent).markBlock ':'

mutual

/-- Writes a value within a block at an indentation. -/
def writeValue (indent : Nat) (underKey : Bool) : Json → Pen → Pen
  | .arr (i :: is), p =>
    writeItems (if underKey && !p.fresh then indent else indent + indentStep) (i :: is) p
  | .obj (f :: fs), p => writeFields (indent + indentStep) (f :: fs) p
  | j, p => writeScalar (indent + indentStep) j p

/-- Writes the items of a sequence. -/
def writeItems (indent : Nat) : List Json → Pen → Pen
  | [], p => p
  | j :: js, p => writeItems indent js (writeValue indent false j ((p.indent indent).markBlock '-'))

/-- Writes the fields of a mapping. -/
def writeFields (indent : Nat) : List (String × Json) → Pen → Pen
  | [], p => p
  | (name, j) :: fs, p =>
    writeFields indent fs (writeValue indent true j (writeKey indent name.toList p))

end

/-- Writes a tree. -/
def writeTree : Json → Pen → Pen
  | .arr (i :: is) => writeItems 0 (i :: is)
  | .obj (f :: fs) => writeFields 0 (f :: fs)
  | j => writeScalar indentStep j

/-- The file that holds a tree. -/
def write (j : Json) : String := String.ofList ((writeTree j {}).indent 0).text

/-- The file that holds a tree, if its numbers can be written. -/
def written (j : Json) : Outcome String :=
  if j.isWritable then .ok (write j) else .error .unwritable

end ValueDocs.Yaml
