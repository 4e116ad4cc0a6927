import ValueDocs.Json.Decode

/-!
# Json/Order — when trees are equal, and which comes first

Numbers of every kind are compared by their values, texts by code point and arrays item by item;
nothing else has an order.  A tree is compared through its *marks*, the parts of it in the order
they are read: trees are equal when their marks are, and of two different ones the first marks that
differ decide which comes before.  What is no number comes before nothing and after nothing.
-/

namespace ValueDocs

/-! ## Magnitudes -/

/-- The value of a number: an infinity lies beyond every finite one. -/
inductive Magnitude where
  | least
  | finite (q : Rat)
  | greatest
  deriving DecidableEq, Repr

/-- Whether a number is less than another. -/
def Magnitude.before : Magnitude → Magnitude → Bool
  | least, least => false
  | least, _ => true
  | _, least => false
  | greatest, _ => false
  | _, greatest => true
  | finite p, finite q => Rat.blt p q

/-- The value of a floating-point number, if it is a number. -/
def Binary64.magnitude? : Binary64 → Option Magnitude
  | .finite negative m e => some (.finite (toRat negative m e))
  | .infinite true => some .least
  | .infinite false => some .greatest
  | .notANumber => none

/-! ## Marks -/

/-- A part of a tree, as it is compared. -/
inductive Atom where
  | null
  | number (value : Magnitude)
  | notANumber
  | text (s : String)
  /-- The start of an array. -/
  | opening
  /-- The start of an object. -/
  | brace
  /-- The end of either. -/
  | closing
  deriving DecidableEq, Repr

/-- A part of a tree, and whether it stands in no object. -/
structure Mark where
  atom : Atom
  bare : Bool
  deriving DecidableEq, Repr

namespace Mark

/-- The order of two atoms, if they have one; what has ended comes before what goes on. -/
def beforeAtom? : Atom → Atom → Option Bool
  | .number a, .number b => some (a.before b)
  | .number _, .notANumber | .notANumber, .number _ | .notANumber, .notANumber => some false
  | .text s, .text t => some (decide (s < t))
  | .closing, .closing => some false
  | .closing, _ => some true
  | _, .closing => some false
  | _, _ => none

/-- The order of two marks, if they have one; inside an object there is none. -/
def before? (m n : Mark) : Option Bool :=
  if m.bare && n.bare then beforeAtom? m.atom n.atom else none

/-- The order of two lists of marks: that of the first ones that differ. -/
def listBefore? : List Mark → List Mark → Option Bool
  | [], [] => some false
  | m :: ms, n :: ns => if m = n then listBefore? ms ns else m.before? n
  | _, _ => none

end Mark

namespace Json

/-- The mark of a floating-point number. -/
def floatAtom (x : Binary64) : Atom := x.magnitude?.elim .notANumber .number

mutual

/-- The marks of a tree, which is `bare` if it stands in no object. -/
def marks (bare : Bool) : Json → List Mark
  | null => [⟨.null, bare⟩]
  | bool b => [⟨.number (.finite (Rat.ofInt (if b then 1 else 0))), bare⟩]
  | int n => [⟨.number (.finite (Rat.ofInt n)), bare⟩]
  | float x => [⟨floatAtom x, bare⟩]
  | str s => [⟨.text s, bare⟩]
  | arr items => ⟨.opening, bare⟩ :: (itemMarks bare items ++ [⟨.closing, bare⟩])
  | obj fields =>
    let parts := (fieldMarks fields).mergeSort fun f g => decide (f.1 ≤ g.1)
    ⟨.brace, bare⟩ ::
      (parts.flatMap (fun f => ⟨.text f.1, false⟩ :: f.2) ++ [⟨.closing, false⟩])

/-- The marks of items, one after another. -/
def itemMarks (bare : Bool) : List Json → List Mark
  | [] => []
  | j :: js => marks bare j ++ itemMarks bare js

/-- The names of fields with the marks of what they hold. -/
def fieldMarks : List (String × Json) → List (String × List Mark)
  | [] => []
  | (name, j) :: fields => (name, marks false j) :: fieldMarks fields

end

/-! ## Equality and order -/

/-- Whether two trees are equal. -/
def equal (a b : Json) : Bool := a.marks true == b.marks true

/-- Whether a tree on its own has a place among others. -/
def hasOrder : Json → Bool
  | null | obj _ => false
  | _ => true

/-- Whether a tree comes before another, if they have an order. -/
def before? (a b : Json) : Option Bool :=
  if a.hasOrder && b.hasOrder then Mark.listBefore? (a.marks true) (b.marks true) else none

/-- Whether a tree comes before another. -/
def before (a b : Json) : Bool := (a.before? b).getD false

/-- Whether any two of some trees have an order. -/
def areComparable : List Json → Bool
  | [] => true
  | j :: js => (js.all fun k => (j.before? k).isSome) && areComparable js

/-- Things in the order of their keys; those with equal keys stay in the order they are in. -/
def sortOn (key : α → Json) (xs : List α) : List α :=
  xs.mergeSort fun x y => !(key y).before (key x)

/-- Things in the order of their keys, if any two keys have one. -/
def sortedOn (key : α → Json) (xs : List α) : Outcome (List α) :=
  if areComparable (xs.map key) then .ok (sortOn key xs) else .error .wrongType

/-- The one of two things that comes first; that is the one on the left if they are equal. -/
def lesser (key : α → Json) (x y : α) : Outcome α :=
  match (key y).before? (key x) with
  | some earlier => .ok (if earlier then y else x)
  | none => .error .wrongType

/-- The first thing that none after it comes before, found from left to right. -/
def leastOn (key : α → Json) : List α → Outcome (Option α)
  | [] => .ok none
  | x :: xs => some <$> xs.foldlM (lesser key) x

/-- A tree that things can be kept by; an array or an object is none. -/
def keptBy (j : Json) : Outcome Json :=
  match j with
  | arr _ | obj _ => .error (.compoundTag j)
  | j => .ok j

/-- The tree if it counts as given, or another one. -/
def orElse (j default : Json) : Json := if j.truthy then j else default

/-- The sum of a number and a whole number. -/
def plus (n : Int) : Json → Outcome Json
  | int m => .ok (int (m + n))
  | bool b => .ok (int ((if b then 1 else 0) + n))
  | float x => .ok (float (x.addWhole n))
  | _ => .error .wrongType

/-! ## Equality is an equivalence -/

@[simp] theorem equal_refl (a : Json) : a.equal a = true := by simp [equal]

theorem equal_iff {a b : Json} : a.equal b = true ↔ a.marks true = b.marks true := by
  simp [equal]

theorem equal_comm (a b : Json) : a.equal b = b.equal a := by
  rw [Bool.eq_iff_iff, equal_iff, equal_iff, eq_comm]

/-- Equal trees are equal to the same trees. -/
theorem equal_congr {a b : Json} (h : a.equal b = true) (c : Json) : a.equal c = b.equal c := by
  rw [equal, equal, equal_iff.1 h]

@[simp] theorem equal_str {s t : String} : (str s).equal (str t) = (s == t) := by
  rw [Bool.eq_iff_iff, equal_iff]
  simp [marks]

end Json
end ValueDocs
