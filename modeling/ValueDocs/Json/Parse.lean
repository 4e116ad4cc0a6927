import ValueDocs.Json.Basic
import ValueDocs.Text.Digit

/-!
# Json/Parse — reading a data tree from its written form

The reader works on what is left of the text, so a fault is located by how much was left when it
was found; `ParseError.ofFault` turns that into an offset, a line and a column.  The grammar also
takes the names of the infinities and of no number.
-/

namespace ValueDocs.Json

/-- What can be wrong with a written tree. -/
inductive FaultCause where
  | value
  | propertyName
  | colon
  | comma
  | unterminatedText
  | controlCharacter
  | escape
  | unicodeEscape
  | extraData
  | byteOrderMark
  /-- A whole number has more digits than one may have. -/
  | digits (count : Nat)
  /-- Half of a pair stands alone, which no text can hold. -/
  | halfPair
  deriving DecidableEq, Repr

/-- The wording of a fault. -/
def FaultCause.message : FaultCause → String
  | value => "Expecting value"
  | propertyName => "Expecting property name enclosed in double quotes"
  | colon => "Expecting ':' delimiter"
  | comma => "Expecting ',' delimiter"
  | unterminatedText => "Unterminated string starting at"
  | controlCharacter => "Invalid control character at"
  | escape => "Invalid \\escape"
  | unicodeEscape => "Invalid \\uXXXX escape"
  | extraData => "Extra data"
  | byteOrderMark => "Unexpected UTF-8 BOM (decode using utf-8-sig)"
  | digits count => Text.tooLongMessage count
  | halfPair => "Half of a UTF-16 pair"

/-- A fault, and how many characters were left where it was found. -/
structure Fault where
  cause : FaultCause
  left : Nat

/-- A fault with its place in the text. -/
structure ParseError where
  cause : FaultCause
  offset : Nat
  line : Nat
  column : Nat
  deriving DecidableEq, Repr

/-- The place of a fault. -/
def ParseError.ofFault (text : List Char) (fault : Fault) : ParseError :=
  let offset := text.length - fault.left
  let before := text.take offset
  ⟨fault.cause, offset, before.count '\n' + 1, (before.reverse.takeWhile (· ≠ '\n')).length + 1⟩

/-- Whether a number with too many digits is the fault. -/
def ParseError.isTooLong (e : ParseError) : Bool :=
  match e.cause with
  | .digits _ => true
  | _ => false

/-- The wording of a fault with its place, which a number with too many digits does not tell. -/
def ParseError.message (e : ParseError) : String :=
  if e.isTooLong then e.cause.message
  else e.cause.message ++ ": line " ++ toString e.line ++ " column " ++ toString e.column ++
    " (char " ++ toString e.offset ++ ")"

/-- A reader of an `α` at the start of a text, with what is left after it. -/
abbrev Reader (α : Type) := List Char → Except Fault (α × List Char)

/-- The white space between tokens. -/
def isSpace (c : Char) : Bool := c == ' ' || c == '\t' || c == '\n' || c == '\r'

/-- What is left after white space. -/
def skipSpace (s : List Char) : List Char := s.dropWhile isSpace

/-! ## Texts -/

/-- The value of a hexadecimal digit. -/
def hexValue? (c : Char) : Option Nat :=
  if '0' ≤ c && c ≤ '9' then some (c.toNat - 48)
  else if 'a' ≤ c && c ≤ 'f' then some (c.toNat - 87)
  else if 'A' ≤ c && c ≤ 'F' then some (c.toNat - 55)
  else none

/-- Four hexadecimal digits at the start of a text. -/
def unit? : List Char → Option Nat
  | a :: b :: c :: d :: _ => do
    return (((← hexValue? a) * 16 + (← hexValue? b)) * 16 + (← hexValue? c)) * 16 + (← hexValue? d)
  | _ => none

/-- The character of an escape letter. -/
def escaped? : Char → Option Char
  | '"' => some '"'
  | '\\' => some '\\'
  | '/' => some '/'
  | 'b' => some '\x08'
  | 'f' => some '\x0c'
  | 'n' => some '\n'
  | 'r' => some '\r'
  | 't' => some '\t'
  | _ => none

/-- The rest of a text whose opening quote is read; `opening` is what was left at that quote. -/
def readText (opening : Nat) : Reader (List Char)
  | [] => .error ⟨.unterminatedText, opening⟩
  | '"' :: rest => .ok ([], rest)
  | ['\\'] => .error ⟨.unterminatedText, opening⟩
  | '\\' :: 'u' :: rest =>
    if rest.length ≤ 4 then .error ⟨.unicodeEscape, rest.length + 1⟩
    else match unit? rest with
      | none => .error ⟨.unicodeEscape, rest.length + 1⟩
      | some hi =>
        match rest with
        | _ :: _ :: _ :: _ :: '\\' :: 'u' :: a :: b :: c :: d :: tail =>
          match unit? [a, b, c, d] with
          | some lo =>
            if 0xd800 ≤ hi && hi < 0xdc00 && 0xdc00 ≤ lo && lo < 0xe000 && !tail.isEmpty then do
              let (cs, left) ← readText opening tail
              return (Char.ofNat (0x10000 + (hi - 0xd800) * 0x400 + (lo - 0xdc00)) :: cs, left)
            else do
              let (cs, left) ← readText opening ('\\' :: 'u' :: a :: b :: c :: d :: tail)
              return ((← ofUnit left hi) :: cs, left)
          | none => do
            let (cs, left) ← readText opening ('\\' :: 'u' :: a :: b :: c :: d :: tail)
            return ((← ofUnit left hi) :: cs, left)
        | _ :: _ :: _ :: _ :: tail => do
          let (cs, left) ← readText opening tail
          return ((← ofUnit left hi) :: cs, left)
        | _ => .error ⟨.unicodeEscape, rest.length + 1⟩
  | '\\' :: c :: rest =>
    match escaped? c with
    | none => .error ⟨.escape, rest.length + 2⟩
    | some e => do
      let (cs, left) ← readText opening rest
      return (e :: cs, left)
  | c :: rest =>
    if c.toNat ≤ 0x1f then .error ⟨.controlCharacter, rest.length + 1⟩
    else do
      let (cs, left) ← readText opening rest
      return (c :: cs, left)
where
  /-- The character of one UTF-16 unit; half a pair alone is no character. -/
  ofUnit (left : List Char) (n : Nat) : Except Fault Char :=
    if 0xd800 ≤ n && n < 0xe000 then .error ⟨.halfPair, left.length⟩ else .ok (Char.ofNat n)

/-! ## Numbers -/

/-- Whether a character is an ASCII digit. -/
def isAsciiDigit (c : Char) : Bool := '0' ≤ c && c ≤ '9'

/-- The number written by ASCII digits. -/
def ofAsciiDigits (ds : List Char) : Nat := ds.foldl (fun n d => 10 * n + (d.toNat - 48)) 0

/-- The whole part of a number: a lone zero, or digits that start with another one. -/
def wholePart? : List Char → Option (List Char × List Char)
  | '0' :: rest => some (['0'], rest)
  | s =>
    match s.span isAsciiDigit with
    | ([], _) => none
    | split => some split

/-- The fraction of a number, if a point and a digit follow. -/
def fraction : List Char → List Char × List Char
  | '.' :: rest =>
    match rest.span isAsciiDigit with
    | ([], _) => ([], '.' :: rest)
    | split => split
  | s => ([], s)

/-- The exponent of a number, if its letter, perhaps a sign, and a digit follow. -/
def exponentPart (s : List Char) : Option Int × List Char :=
  match s with
  | [] => (none, s)
  | c :: rest =>
    if c = 'e' ∨ c = 'E' then
      let (negative, digits) := match rest with
        | '-' :: t => (true, t)
        | '+' :: t => (false, t)
        | t => (false, t)
      match digits.span isAsciiDigit with
      | ([], _) => (none, s)
      | (ds, left) =>
        let n : Int := ofAsciiDigits ds
        (some (if negative then -n else n), left)
    else (none, s)

/-- A number without its sign; `left` is what was left where the number starts. -/
def unsignedNumber (left : Nat) (negative : Bool) : Reader Json := fun s =>
  match wholePart? s with
  | none => .error ⟨.value, left⟩
  | some (whole, s) =>
    let (decimals, s) := fraction s
    let (exponent, s) := exponentPart s
    if decimals.isEmpty && exponent.isNone then
      if Text.digitLimit < whole.length then .error ⟨.digits whole.length, left⟩
      else
        let n : Int := ofAsciiDigits whole
        .ok (.int (if negative then -n else n), s)
    else
      let digits := ofAsciiDigits (whole ++ decimals)
      .ok (.float (Binary64.ofDecimal negative digits (exponent.getD 0 - decimals.length)), s)

/-! ## Trees

A tree is never deeper than its text is long, and each level takes two steps, which bounds the
recursion. -/

mutual

/-- A tree at the start of a text. -/
def readValue : Nat → Reader Json
  | 0, s => .error ⟨.value, s.length⟩
  | depth + 1, s =>
    match s with
    | '"' :: rest => do
      let (cs, left) ← readText s.length rest
      return (.str (String.ofList cs), left)
    | '{' :: rest =>
      match skipSpace rest with
      | '}' :: left => .ok (.obj [], left)
      | rest => readFields depth [] rest
    | '[' :: rest =>
      match skipSpace rest with
      | ']' :: left => .ok (.arr [], left)
      | rest => readItems depth [] rest
    | 'n' :: 'u' :: 'l' :: 'l' :: left => .ok (.null, left)
    | 't' :: 'r' :: 'u' :: 'e' :: left => .ok (.bool true, left)
    | 'f' :: 'a' :: 'l' :: 's' :: 'e' :: left => .ok (.bool false, left)
    | 'N' :: 'a' :: 'N' :: left => .ok (.float .notANumber, left)
    | 'I' :: 'n' :: 'f' :: 'i' :: 'n' :: 'i' :: 't' :: 'y' :: left =>
      .ok (.float (.infinite false), left)
    | '-' :: 'I' :: 'n' :: 'f' :: 'i' :: 'n' :: 'i' :: 't' :: 'y' :: left =>
      .ok (.float (.infinite true), left)
    | '-' :: rest => unsignedNumber s.length true rest
    | s => unsignedNumber s.length false s

/-- The items of an array from its next item on; `done` holds the earlier ones, last first. -/
def readItems : Nat → List Json → Reader Json
  | 0, _, s => .error ⟨.value, s.length⟩
  | depth + 1, done, s => do
    let (item, s) ← readValue depth s
    match skipSpace s with
    | ']' :: left => return (.arr (item :: done).reverse, left)
    | ',' :: rest => readItems depth (item :: done) (skipSpace rest)
    | rest => .error ⟨.comma, rest.length⟩

/-- The fields of an object from its next field on; `done` holds the earlier ones. -/
def readFields : Nat → Fields → Reader Json
  | 0, _, s => .error ⟨.propertyName, s.length⟩
  | depth + 1, done, s =>
    match s with
    | '"' :: rest => do
      let (name, rest) ← readText s.length rest
      match skipSpace rest with
      | ':' :: rest => do
        let (value, rest) ← readValue depth (skipSpace rest)
        let fields := setField (String.ofList name) value done
        match skipSpace rest with
        | '}' :: left => return (.obj fields, left)
        | ',' :: rest => readFields depth fields (skipSpace rest)
        | rest => .error ⟨.comma, rest.length⟩
      | rest => .error ⟨.colon, rest.length⟩
    | s => .error ⟨.propertyName, s.length⟩

end

/-- The tree a text writes. -/
def parseChars (text : List Char) : Except ParseError Json :=
  let result : Except Fault Json := do
    if text.head? = some '\ufeff' then throw ⟨.byteOrderMark, text.length⟩
    let (j, left) ← readValue (2 * text.length + 2) (skipSpace text)
    match skipSpace left with
    | [] => return j
    | left => throw ⟨.extraData, left.length⟩
  result.mapError (ParseError.ofFault text)

/-- The tree a text writes. -/
def parse (text : String) : Except ParseError Json := parseChars text.toList

end ValueDocs.Json
