import ValueDocs.Number.Binary64

/-!
# Number/Shortest — the shortest decimal that reads back, and how it is written

Every real number nearer to a floating-point number than to its neighbours reads back as it; the
two ends of that interval do so when the significand is even.  Among the decimals in the interval
the ones with the fewest digits are sought, grid by grid: on each grid of `n` digits only the two
points around the number can be nearest, so two tests decide it.
-/

namespace ValueDocs.Binary64

/-- The largest `t` with `10 ^ t ≤ num / den`. -/
def decimalOrder (num den : Nat) : Int :=
  if den ≤ num then ((Nat.toDigits 10 (num / den)).length : Int) - 1
  else
    let width := (Nat.toDigits 10 (den / num)).length
    if num * tenPow (width - 1) = den then -((width : Int) - 1) else -(width : Int)

/-- A decimal `digits * 10 ^ exponent`. -/
structure Decimal where
  digits : Nat
  exponent : Int
  deriving DecidableEq, Repr

namespace Decimal

/-- A decimal as a quotient of whole numbers. -/
def ratio (x : Decimal) : Nat × Nat :=
  if x.exponent < 0 then (x.digits, tenPow (-x.exponent).toNat)
  else (x.digits * tenPow x.exponent.toNat, 1)

/-- The decimal without trailing zeros. -/
def normalize (x : Decimal) : Decimal :=
  let zeros := ((Nat.toDigits 10 x.digits).reverse.takeWhile (· == '0')).length
  ⟨x.digits / tenPow zeros, x.exponent + zeros⟩

end Decimal

/-- Whether `x` reads back as `m * 2 ^ e`. -/
def readsBack (m : Nat) (e : Int) (x : Decimal) : Bool :=
  let (n, d) := x.ratio
  let low := if m = twoPow 52 && e > minExponent then 4 * m - 1 else 4 * m - 2
  let (ln, ld) := Binary64.ratio low (e - 2)
  let (hn, hd) := Binary64.ratio (4 * m + 2) (e - 2)
  if m % 2 = 0 then ln * d ≤ n * ld && n * hd ≤ hn * d
  else ln * d < n * ld && n * hd < hn * d

/-- The decimal of `n` digits nearest to `m * 2 ^ e`, if one of that length reads back. -/
def nearestOfLength? (m : Nat) (e : Int) (n : Nat) : Option Decimal :=
  let (num, den) := Binary64.ratio m e
  let k := decimalOrder num den - n + 1
  let (num, den) := if k < 0 then (num * tenPow (-k).toNat, den) else (num, den * tenPow k.toNat)
  let below : Decimal := ⟨num / den, k⟩
  let above : Decimal := ⟨num / den + 1, k⟩
  let nearer := if 2 * (num % den) < den ∨ (2 * (num % den) = den ∧ num / den % 2 = 0)
    then [below, above] else [above, below]
  nearer.find? (readsBack m e)

/-- The shortest decimal that reads back as `m * 2 ^ e`; seventeen digits always suffice. -/
def shortest (m : Nat) (e : Int) : Decimal :=
  (((List.range 17).findSome? fun n => nearestOfLength? m e (n + 1)).getD ⟨0, 0⟩).normalize

/-! ## Writing -/

/-- The decisions of a format that writes floating-point numbers. -/
structure Style where
  /-- The least decimal order written without an exponent. -/
  positionalFrom : Int
  /-- The least decimal order above it that is written with an exponent. -/
  positionalBelow : Int
  /-- Whether a lone digit before an exponent is followed by `.0`. -/
  pointBeforeExponent : Bool
  infinity : String
  notANumber : String

/-- Digits padded with zeros on the left to a width. -/
def padZeros (width : Nat) (digits : List Char) : List Char :=
  List.replicate (width - digits.length) '0' ++ digits

/-- A positive decimal in positional or scientific form. -/
def Style.writeDecimal (style : Style) (x : Decimal) : List Char :=
  let ds := Nat.toDigits 10 x.digits
  let order := x.exponent + ds.length - 1
  if style.positionalFrom ≤ order && order < style.positionalBelow then
    if order < 0 then
      "0.".toList ++ List.replicate (-order - 1).toNat '0' ++ ds
    else if x.exponent ≥ 0 then
      ds ++ List.replicate x.exponent.toNat '0' ++ ".0".toList
    else
      ds.take (order.toNat + 1) ++ '.' :: ds.drop (order.toNat + 1)
  else
    let fraction := match ds.drop 1 with
      | [] => if style.pointBeforeExponent then ".0".toList else []
      | rest => '.' :: rest
    ds.take 1 ++ fraction ++ 'e' :: (if order < 0 then '-' else '+') ::
      padZeros 2 (Nat.toDigits 10 order.natAbs)

/-- The text of a floating-point number in a style. -/
def Style.write (style : Style) : Binary64 → String
  | .notANumber => style.notANumber
  | .infinite negative => (if negative then "-" else "") ++ style.infinity
  | .finite negative m e =>
    let size := if m = 0 then "0.0".toList else style.writeDecimal (shortest m e)
    String.ofList (if negative then '-' :: size else size)

end ValueDocs.Binary64
