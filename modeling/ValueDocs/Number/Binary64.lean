/-!
# Number/Binary64 — binary floating-point numbers, held as the numbers they are

A finite number is a significand of at most 53 bits times a power of two.  `ofRatio` rounds a
quotient of whole numbers to the nearest one, ties to the even significand, in exact arithmetic;
`ofDecimal` reads a decimal numeral through it.
-/

namespace ValueDocs

/-- A floating-point number: `± significand * 2 ^ exponent`, an infinity, or no number at all. -/
inductive Binary64 where
  | finite (negative : Bool) (significand : Nat) (exponent : Int)
  | infinite (negative : Bool)
  | notANumber
  deriving DecidableEq, Repr, Inhabited

namespace Binary64

/-- The exponent of the smallest numbers. -/
def minExponent : Int := -1074

/-- The exponent of the largest numbers. -/
def maxExponent : Int := 971

/-- A power of two. -/
def twoPow (n : Nat) : Nat := Nat.pow 2 n

/-- A power of ten. -/
def tenPow (n : Nat) : Nat := Nat.pow 10 n

/-- The numerator and denominator of `num / den / 2 ^ e`. -/
def scaleTwo (num den : Nat) (e : Int) : Nat × Nat :=
  if e < 0 then (num * twoPow (-e).toNat, den) else (num, den * twoPow e.toNat)

/-- The whole number nearest to `num / den`, ties to even. -/
def roundQuotient (num den : Nat) : Nat :=
  let q := num / den
  let r := num % den
  if 2 * r < den then q else if 2 * r = den then q + q % 2 else q + 1

/-- The number nearest to `num / den`. -/
def ofRatio (negative : Bool) (num den : Nat) : Binary64 :=
  if num = 0 then .finite negative 0 minExponent
  else
    let guess : Int := (num.log2 : Int) - den.log2 - 52
    let (n, d) := scaleTwo num den guess
    let e := max (if n / d < twoPow 52 then guess - 1 else guess) minExponent
    let (n, d) := scaleTwo num den e
    let m := roundQuotient n d
    let (m, e) := if m = twoPow 53 then (twoPow 52, e + 1) else (m, e)
    if e > maxExponent then .infinite negative else .finite negative m e

/-- The number nearest to `± digits * 10 ^ exponent`. -/
def ofDecimal (negative : Bool) (digits : Nat) (exponent : Int) : Binary64 :=
  let magnitude := exponent + (Nat.toDigits 10 digits).length
  if digits = 0 then .finite negative 0 minExponent
  else if magnitude > 400 then .infinite negative
  else if magnitude < -400 then .finite negative 0 minExponent
  else if exponent < 0 then ofRatio negative digits (tenPow (-exponent).toNat)
  else ofRatio negative (digits * tenPow exponent.toNat) 1

/-- The size of a finite number as a quotient of whole numbers. -/
def ratio (significand : Nat) (exponent : Int) : Nat × Nat :=
  if exponent < 0 then (significand, twoPow (-exponent).toNat)
  else (significand * twoPow exponent.toNat, 1)

/-- The whole part of a finite number: the fraction is cut off. -/
def truncate (negative : Bool) (significand : Nat) (exponent : Int) : Int :=
  let (n, d) := ratio significand exponent
  if negative then -((n / d : Nat) : Int) else ((n / d : Nat) : Int)

/-- The number that a finite number is, exactly. -/
def toRat (negative : Bool) (significand : Nat) (exponent : Int) : Rat :=
  let (n, d) := ratio significand exponent
  mkRat (if negative then -(n : Int) else n) d

/-- The sum with a whole number, rounded once; a sum of zero has no sign. -/
def addWhole (n : Int) : Binary64 → Binary64
  | .finite negative m e =>
    let (num, den) := ratio m e
    let sum : Int := (if negative then -(num : Int) else num) + n * den
    ofRatio (decide (sum < 0)) sum.natAbs den
  | x => x

/-- A sum or a product of the sizes of two numbers, rounded once. -/
def combine (op : Nat × Nat → Nat × Nat → Nat × Nat) : Binary64 → Binary64 → Binary64
  | .finite _ m e, .finite _ n f =>
    let (num, den) := op (ratio m e) (ratio n f)
    ofRatio false num den
  | .notANumber, _ | _, .notANumber => .notANumber
  | _, _ => .infinite false

/-- The sum of the sizes of two numbers. -/
def addSizes : Binary64 → Binary64 → Binary64 := combine fun (a, b) (c, d) => (a * d + c * b, b * d)

/-- The product of the sizes of two numbers. -/
def mulSizes : Binary64 → Binary64 → Binary64 := combine fun (a, b) (c, d) => (a * c, b * d)

/-- The number of the same size and a sign. -/
def withSign (negative : Bool) : Binary64 → Binary64
  | .finite _ m e => .finite negative m e
  | .infinite _ => .infinite negative
  | .notANumber => .notANumber

/-- Whether the number is zero of either sign. -/
def isZero : Binary64 → Bool
  | .finite _ m _ => m == 0
  | _ => false

/-- Whether the number is greater than one. -/
def exceedsOne : Binary64 → Bool
  | .finite false m e => let (n, d) := ratio m e; d < n
  | .infinite false => true
  | _ => false

end Binary64
end ValueDocs
