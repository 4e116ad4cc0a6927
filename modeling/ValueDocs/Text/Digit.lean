import ValueDocs.Text.Blank

/-!
# Text/Digit — decimal digits of every script, and whole numbers written with them

Each script that has decimal digits has ten in a row, so the zeros are the whole table.  A whole
number is written with an optional sign and digits of any scripts, between which single
underscores may stand, and may have blanks around it.
-/

namespace ValueDocs.Text

/-- The zero digit of each script. -/
def zeroDigits : List Nat := [
    0x30, 0x660, 0x6f0, 0x7c0, 0x966, 0x9e6, 0xa66, 0xae6, 0xb66, 0xbe6, 0xc66, 0xce6, 0xd66,
    0xde6, 0xe50, 0xed0, 0xf20, 0x1040, 0x1090, 0x17e0, 0x1810, 0x1946, 0x19d0, 0x1a80, 0x1a90,
    0x1b50, 0x1bb0, 0x1c40, 0x1c50, 0xa620, 0xa8d0, 0xa900, 0xa9d0, 0xa9f0, 0xaa50, 0xabf0,
    0xff10, 0x104a0, 0x10d30, 0x11066, 0x110f0, 0x11136, 0x111d0, 0x112f0, 0x11450, 0x114d0,
    0x11650, 0x116c0, 0x11730, 0x118e0, 0x11950, 0x11c50, 0x11d50, 0x11da0, 0x16a60, 0x16ac0,
    0x16b50, 0x1d7ce, 0x1d7d8, 0x1d7e2, 0x1d7ec, 0x1d7f6, 0x1e140, 0x1e2f0, 0x1e950, 0x1fbf0]

/-- The value of a decimal digit. -/
def digitValue? (c : Char) : Option Nat :=
  (zeroDigits.find? fun z => z ≤ c.toNat && c.toNat < z + 10).map (c.toNat - ·)

/-- Whether a character is a decimal digit of some script. -/
def isDigit (c : Char) : Bool := (digitValue? c).isSome

/-- The number written by a run of digits, most significant first. -/
def ofDigits (digits : List Nat) : Nat := digits.foldl (fun n d => 10 * n + d) 0

/-! ## Reading whole numbers -/

/-- The number of digits a whole number may be written with. -/
def digitLimit : Nat := 4300

/-- Why a text writes no whole number. -/
inductive NumeralFault where
  | malformed
  /-- It has more digits than a number may have. -/
  | tooLong (digits : Nat)
  deriving DecidableEq, Repr

/-- The wording for a number with too many digits. -/
def tooLongMessage (digits : Nat) : String :=
  "Exceeds the limit (" ++ toString digitLimit ++
    " digits) for integer string conversion: value has " ++ toString digits ++
    " digits; use sys.set_int_max_str_digits() to increase the limit"

/-- The wording where a number with too many digits is to be written. -/
def unwritableMessage : String :=
  "Exceeds the limit (" ++ toString digitLimit ++
    " digits) for integer string conversion; use sys.set_int_max_str_digits() to increase the limit"

/-- The digits that a text opens with, which single underscores may separate, and what follows
them; none if an underscore does not stand before a digit. -/
def leadingDigits? : List Char → Option (List Nat × List Char)
  | [] => some ([], [])
  | ['_'] => none
  | '_' :: c :: rest => if isDigit c then leadingDigits? (c :: rest) else none
  | c :: rest =>
    match digitValue? c with
    | none => some ([], c :: rest)
    | some d => (leadingDigits? rest).map fun (ds, left) => (d :: ds, left)

/-- The number a numeral without a sign writes. -/
def natural (s : List Char) : Except NumeralFault Nat :=
  if !s.head?.any isDigit then .error .malformed
  else match leadingDigits? s with
    | none => .error .malformed
    | some (ds, left) =>
      if digitLimit < ds.length then .error (.tooLong ds.length)
      else if left.isEmpty then .ok (ofDigits ds)
      else .error .malformed

/-- Whether a blank may stand around a number: the information separators may not. -/
def isNumberBlank (c : Char) : Bool := isBlank c && !(0x1c ≤ c.toNat && c.toNat ≤ 0x1f)

/-- The whole number a text writes. -/
def integer (s : List Char) : Except NumeralFault Int :=
  match trimBy isNumberBlank s with
  | '-' :: rest => (natural rest).map fun n => -(n : Int)
  | '+' :: rest => (natural rest).map fun n => (n : Int)
  | rest => (natural rest).map fun n => (n : Int)

end ValueDocs.Text
