import ValueDocs.Number.Binary64

/-!
# Json/Basic — data trees, with the order of their fields kept

A tree is null, a truth value, a whole number of any size, a floating-point number, a text, an
array, or an object.  An object keeps its fields in the order they were written; writing a field
again replaces its value in place (`setField`), so a name occurs once.
-/

namespace ValueDocs

/-- A data tree. -/
inductive Json where
  | null
  | bool (b : Bool)
  | int (n : Int)
  | float (x : Binary64)
  | str (s : String)
  | arr (items : List Json)
  | obj (fields : List (String × Json))
  deriving Inhabited

namespace Json

/-! ## Equality

Trees are compared part by part, so that whether two are equal can be computed. -/

mutual

/-- Whether two trees are the same. -/
def same : Json → Json → Bool
  | null, null => true
  | bool a, bool b => a == b
  | int m, int n => m == n
  | float x, float y => x == y
  | str s, str t => s == t
  | arr js, arr ks => sameItems js ks
  | obj fs, obj gs => sameFields fs gs
  | _, _ => false

/-- Whether two lists of items are the same. -/
def sameItems : List Json → List Json → Bool
  | [], [] => true
  | j :: js, k :: ks => same j k && sameItems js ks
  | _, _ => false

/-- Whether two lists of fields are the same. -/
def sameFields : List (String × Json) → List (String × Json) → Bool
  | [], [] => true
  | (a, j) :: fs, (b, k) :: gs => a == b && same j k && sameFields fs gs
  | _, _ => false

end

mutual

theorem same_iff : ∀ j k : Json, same j k = true ↔ j = k
  | null, k => by cases k <;> simp [same]
  | bool _, k => by cases k <;> simp [same]
  | int _, k => by cases k <;> simp [same]
  | float _, k => by cases k <;> simp [same]
  | str _, k => by cases k <;> simp [same]
  | arr js, k => by cases k <;> simp [same, sameItems_iff js]
  | obj fs, k => by cases k <;> simp [same, sameFields_iff fs]

theorem sameItems_iff : ∀ js ks : List Json, sameItems js ks = true ↔ js = ks
  | [], ks => by cases ks <;> simp [sameItems]
  | j :: js, ks => by cases ks <;> simp [sameItems, same_iff j, sameItems_iff js]

theorem sameFields_iff : ∀ fs gs : List (String × Json), sameFields fs gs = true ↔ fs = gs
  | [], gs => by cases gs <;> simp [sameFields]
  | (a, j) :: fs, gs => by
    rcases gs with _ | ⟨⟨b, k⟩, gs⟩ <;>
      simp [sameFields, same_iff j, sameFields_iff fs, and_assoc]

end

instance : DecidableEq Json := fun _ _ => decidable_of_iff _ (same_iff ..)

/-! ## Fields and kinds -/

/-- The fields of an object. -/
abbrev Fields := List (String × Json)

/-- The fields with one more; a field of that name keeps its place and takes the new value. -/
def setField (name : String) (value : Json) : Fields → Fields
  | [] => [(name, value)]
  | (k, v) :: rest => if k = name then (k, value) :: rest else (k, v) :: setField name value rest

/-- The fields of a list in which a later value replaces an earlier one of the same name. -/
def ofFields (fields : Fields) : Fields := fields.foldl (fun acc (k, v) => setField k v acc) []

/-- Whether the tree counts as given: not null, false, zero, or empty. -/
def truthy : Json → Bool
  | null => false
  | bool b => b
  | int n => n != 0
  | float x => !x.isZero
  | str s => s != ""
  | arr items => !items.isEmpty
  | obj fields => !fields.isEmpty

/-- Whether the tree is an object. -/
def isObj : Json → Bool
  | obj _ => true
  | _ => false

/-- The text a tree is, if it is one. -/
def string? : Json → Option String
  | str s => some s
  | _ => none

/-- A text, or null. -/
def ofText? : Option String → Json
  | some s => str s
  | none => null

/-- An array of texts. -/
def ofTexts (ts : List String) : Json := arr (ts.map str)

/-- An array of whole numbers. -/
def ofInts (ns : List Int) : Json := arr (ns.map int)

/-! ## Ordering the fields

Fields in the order of their names by code point, at every depth. -/

mutual

/-- The tree with the fields of every object in the order of their names. -/
def sorted : Json → Json
  | arr items => arr (sortedItems items)
  | obj fields => obj ((sortedFields fields).mergeSort fun a b => decide (a.1 ≤ b.1))
  | j => j

/-- The items with their fields in order. -/
def sortedItems : List Json → List Json
  | [] => []
  | j :: js => sorted j :: sortedItems js

/-- The fields with the fields below them in order. -/
def sortedFields : List (String × Json) → List (String × Json)
  | [] => []
  | (k, j) :: js => (k, sorted j) :: sortedFields js

end

end Json
end ValueDocs
