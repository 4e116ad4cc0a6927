import ValueDocs.Failure
import ValueDocs.Text.Lines
import ValueDocs.Yaml.Timestamp

/-!
# Yaml/Scalar — what a scalar stands for

A scalar without quotes or a tag is null, a truth value, a whole number, a floating-point number, a
timestamp or a text, as its form tells (`kindOf`).  Whole numbers may be binary, octal, hexadecimal
or in base sixty, floating-point numbers in base sixty; digits may be set apart by underscores.
-/

namespace ValueDocs.Yaml

/-- The kinds of scalars. -/
inductive ScalarKind where
  | null
  | bool
  | whole
  | float
  | timestamp
  /-- The key whose value is merged into a mapping. -/
  | merge
  /-- The key that stands for a mapping as a whole. -/
  | default
  | text
  deriving DecidableEq, Repr

/-! ## The forms of scalars -/

/-- The scalars for null. -/
def nulls : List String := ["", "~", "null", "Null", "NULL"]

/-- The scalars for true. -/
def trues : List String := ["yes", "Yes", "YES", "true", "True", "TRUE", "on", "On", "ON"]

/-- The scalars for false. -/
def falses : List String := ["no", "No", "NO", "false", "False", "FALSE", "off", "Off", "OFF"]

/-- The sign of a number, and what follows it. -/
def sign : List Char → Bool × List Char
  | '-' :: s => (true, s)
  | '+' :: s => (false, s)
  | s => (false, s)

/-- Whether a character is a digit or an underscore. -/
def isPlace (c : Char) : Bool := Json.isAsciiDigit c || c == '_'

/-- What follows places in base sixty: after a colon one digit, or two below sixty. -/
def skipSixtieths : List Char → List Char
  | ':' :: a :: b :: s =>
    if '0' ≤ a && a ≤ '5' && Json.isAsciiDigit b then skipSixtieths s
    else if Json.isAsciiDigit a then skipSixtieths (b :: s)
    else ':' :: a :: b :: s
  | [':', a] => if Json.isAsciiDigit a then [] else [':', a]
  | s => s

/-- Whether a text is made of digits with a property and underscores, and not empty. -/
def isNumeral (digit : Char → Bool) (s : List Char) : Bool :=
  !s.isEmpty && s.all fun c => digit c || c == '_'

/-- Whether a text has the form of a whole number. -/
def isWhole (s : List Char) : Bool :=
  match (sign s).2 with
  | [] => false
  | ['0'] => true
  | '0' :: 'b' :: s => isNumeral (fun c => c == '0' || c == '1') s
  | '0' :: 'x' :: s => isNumeral (fun c => (Json.hexValue? c).isSome) s
  | '0' :: s => isNumeral (fun c => '0' ≤ c && c ≤ '7') s
  | c :: s => Json.isAsciiDigit c && (skipSixtieths (s.dropWhile isPlace)).isEmpty

/-- Whether a text is an exponent, which has a sign, or empty. -/
def isExponent : List Char → Bool
  | [] => true
  | c :: d :: s =>
    (c == 'e' || c == 'E') && (d == '-' || d == '+') && !s.isEmpty && s.all Json.isAsciiDigit
  | _ => false

/-- Whether a text has the form of an infinity. -/
def isInfinity (s : List Char) : Bool :=
  [".inf", ".Inf", ".INF"].any fun name => name.toList == (sign s).2

/-- Whether a text has the form of no number. -/
def isNotANumber (s : List Char) : Bool :=
  [".nan", ".NaN", ".NAN"].any fun name => name.toList == s

/-- Whether a text has the form of a number with a point. -/
def isDecimal (s : List Char) : Bool :=
  match s, (sign s).2 with
  | '.' :: c :: s, _ => Json.isAsciiDigit c && isExponent (s.dropWhile isPlace)
  | _, c :: s =>
    Json.isAsciiDigit c &&
      match s.dropWhile isPlace with
      | '.' :: s => isExponent (s.dropWhile isPlace)
      | ':' :: s =>
        match skipSixtieths (':' :: s) with
        | '.' :: s => s.all isPlace
        | _ => false
      | _ => false
  | _, [] => false

/-- What the form of a bare scalar tells. -/
def kindOf (s : List Char) : ScalarKind :=
  let text := String.ofList s
  if text ∈ nulls then .null
  else if text ∈ trues ∨ text ∈ falses then .bool
  else if isWhole s then .whole
  else if isDecimal s || isInfinity s || isNotANumber s then .float
  else if Timestamp.isWritten s then .timestamp
  else if text = "<<" then .merge
  else if text = "=" then .default
  else .text

/-! ## The values of scalars -/

/-- The number that digits in a base write. -/
def ofBase? (base : Nat) (s : List Char) : Option Nat := do
  let digits ← s.mapM Json.hexValue?
  if digits.isEmpty || digits.any (base ≤ ·) then none
  else return digits.foldl (fun n d => base * n + d) 0

/-- A whole number without its sign and underscores. -/
def whole? : List Char → Option Int
  | ['0'] => some 0
  | '0' :: 'b' :: s => Int.ofNat <$> ofBase? 2 s
  | '0' :: 'x' :: s => Int.ofNat <$> ofBase? 16 s
  | '0' :: s => Int.ofNat <$> ofBase? 8 s
  | s => do
    let places ← (Text.splitAt ':' s).mapM fun place => (Text.integer place).toOption
    return places.foldl (fun n d => 60 * n + d) 0

/-- A decimal number without its sign and underscores. -/
def decimal? (s : List Char) : Option Binary64 := do
  let (whole, s) := s.span Json.isAsciiDigit
  let (decimals, s) := match s with
    | '.' :: s => s.span Json.isAsciiDigit
    | s => ([], s)
  let exponent : Int ← match s with
    | 'e' :: s => do
      let (negative, s) := sign s
      let n ← ofBase? 10 s
      pure (if negative then -(n : Int) else n)
    | [] => pure 0
    | _ => none
  if whole.isEmpty && decimals.isEmpty then none
  return Binary64.ofDecimal false (Json.ofAsciiDigits (whole ++ decimals))
    (exponent - decimals.length)

/-- The sum of places in base sixty, the last one first; `base` is what the first counts. -/
def sumSixtieths : Nat → List Binary64 → Binary64 → Binary64
  | _, [], sum => sum
  | base, x :: xs, sum =>
    sumSixtieths (60 * base) xs (sum.addSizes (x.mulSizes (Binary64.ofRatio false base 1)))

/-- A floating-point number without its sign and underscores. -/
def float? (s : List Char) : Option Binary64 :=
  if s = ".inf".toList then some (.infinite false)
  else if s = ".nan".toList then some .notANumber
  else if s.contains ':' then do
    let places ← (Text.splitAt ':' s).mapM decimal?
    return sumSixtieths 1 places.reverse (Binary64.ofRatio false 0 1)
  else decimal? s

/-- A value, unless a scalar is malformed. -/
def orMalformed {α : Type} : Option α → Outcome α
  | some a => .ok a
  | none => .error .malformedYaml

/-- The value of a number without underscores, read without its sign. -/
def signed {α : Type} (s : List Char) (read : Bool → List Char → Option α) : Outcome α :=
  let s := s.filter (· ≠ '_')
  if s.isEmpty then .error .noLine
  else
    let (negative, s) := sign s
    orMalformed (read negative s)

/-- The truth value of a scalar. -/
def truth (s : List Char) : Outcome Bool :=
  let text := String.ofList (s.map Char.toLower)
  if text ∈ trues then .ok true
  else if text ∈ falses then .ok false
  else .error (.missingKey text)

/-- The value of a scalar of a kind. -/
def scalarValue (kind : ScalarKind) (s : List Char) : Outcome Json :=
  match kind with
  | .null => .ok .null
  | .bool => Json.bool <$> truth s
  | .whole => signed s fun negative s => do
    let n ← whole? s
    return .int (if negative then -n else n)
  | .float => signed (s.map Char.toLower) fun negative s => do
    return .float ((← float? s).withSign negative)
  | .timestamp => do
    let t ← orMalformed (Timestamp.read? s)
    if t.isValid then return .str t.text else throw .malformedYaml
  | .text => .ok (.str (String.ofList s))
  | .merge | .default => .error .malformedYaml

end ValueDocs.Yaml
