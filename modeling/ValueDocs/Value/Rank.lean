import ValueDocs.Json.Decode

/-!
# Value/Rank — the places of values in a declaration

Values are numbered in the order of their declaration, and a place that is read back may be any
finite number.  Ranks are compared by the numbers they are, exactly.
-/

namespace ValueDocs

/-- The place of a value, as it is given. -/
inductive Rank where
  | whole (n : Int)
  /-- A finite floating-point number. -/
  | fractional (negative : Bool) (significand : Nat) (exponent : Int)
  /-- A truth value counts as one or zero. -/
  | truth (b : Bool)
  deriving DecidableEq, Repr, Inhabited

namespace Rank

/-- The number by which a rank is compared. -/
def value : Rank → Rat
  | whole n => Rat.ofInt n
  | fractional negative m e => Binary64.toRat negative m e
  | truth b => Rat.ofInt (if b then 1 else 0)

/-- Whether a rank comes before another. -/
def before (a b : Rank) : Bool := Rat.blt a.value b.value

/-- Whether a rank does not come after another. -/
def le (a b : Rank) : Bool := !b.before a

/-- The data tree of a rank. -/
def toJson : Rank → Json
  | whole n => .int n
  | fractional negative m e => .float (.finite negative m e)
  | truth b => .bool b

theorem before_iff {a b : Rank} : a.before b = true ↔ a.value < b.value := Iff.rfl

theorem le_iff {a b : Rank} : a.le b = true ↔ a.value ≤ b.value := by
  rw [le, Bool.not_eq_true', ← Bool.not_eq_true, before_iff, Rat.not_lt]

/-- Whole ranks are compared as whole numbers. -/
theorem le_whole {m n : Int} : (whole m).le (whole n) = true ↔ m ≤ n := by
  rw [le_iff]
  exact Rat.intCast_le_intCast

end Rank
end ValueDocs
