import ValueDocs.Value.Rank

/-!
# Value/Declared — possible values as a symbol declares them

A symbol's metadata lists its values as texts or as objects that name one; a list may stand alone or
under one of four fields.  A name declared again is ignored, so the values read from metadata have
distinct names and are numbered in order.
-/

namespace ValueDocs

/-- A value a symbol declares, and its place in the declaration. -/
structure DeclaredValue where
  name : String
  order : Rank
  deriving DecidableEq, Repr, Inhabited

namespace DeclaredValue

/-- The data tree of a declared value. -/
def toJson (v : DeclaredValue) : Json :=
  .obj [("name", .str v.name), ("declaration_order", v.order.toJson)]

end DeclaredValue

namespace Metadata

/-- The fields that may hold a list of values, in the order they are looked up. -/
def listFields : List String := ["possibleValues", "allowedValues", "cases", "keys"]

/-- The fields that may name one value. -/
def nameFields : List String := ["value", "name", "key"]

/-- The text under a field, if there is one. -/
def textField? (fields : Json.Fields) (name : String) : Option String :=
  match fields.lookup name with
  | some (.str s) => some s
  | _ => none

/-- The name an item of a list declares. -/
def nameOf? : Json → Option String
  | .str s => some s
  | .obj fields => nameFields.findSome? (textField? fields)
  | _ => none

/-- The items of the list of values in metadata. -/
def items : Json → Outcome (List Json)
  | .null => .ok []
  | .obj fields =>
    match listFields.findSome? (fields.lookup ·) with
    | some list => if list.truthy then list.elements else .ok []
    | none => .ok []
  | .str _ => .error .metadataIsText
  | metadata => metadata.elements

/-- The names that are not among those seen, each at its first occurrence. -/
def unseen (seen : List String) : List String → List String
  | [] => []
  | name :: names =>
    if name ∈ seen then unseen seen names else name :: unseen (name :: seen) names

/-- The names with later repetitions left out. -/
def distinct (names : List String) : List String := unseen [] names

/-- The names numbered from a first number on. -/
def numbered (first : Int) : List String → List DeclaredValue
  | [] => []
  | name :: names => ⟨name, .whole first⟩ :: numbered (first + 1) names

/-- The values that metadata declares. -/
def declaredValues (metadata : Json) : Outcome (List DeclaredValue) := do
  return numbered 0 (distinct ((← items metadata).filterMap nameOf?))

end Metadata

/-- Where the declared values of a symbol come from. -/
inductive Declaration where
  /-- The metadata of the symbol. -/
  | metadata (tree : Json)
  /-- Values that are read already. -/
  | values (values : List DeclaredValue)
  deriving Inhabited

/-- The values of a declaration. -/
def Declaration.toValues : Declaration → Outcome (List DeclaredValue)
  | metadata tree => Metadata.declaredValues tree
  | values vs => .ok vs

namespace Metadata

/-! ## Names are distinct and numbered -/

theorem mem_unseen {seen names : List String} {name : String} :
    name ∈ unseen seen names ↔ name ∈ names ∧ name ∉ seen := by
  induction names generalizing seen with
  | nil => simp [unseen]
  | cons n names ih =>
    by_cases h : n ∈ seen
    · simp only [unseen, h, if_true, ih, List.mem_cons]
      constructor
      · rintro ⟨hn, hs⟩
        exact ⟨.inr hn, hs⟩
      · rintro ⟨rfl | hn, hs⟩
        · exact absurd h hs
        · exact ⟨hn, hs⟩
    · simp only [unseen, h, if_false, ih, List.mem_cons, not_or]
      by_cases e : name = n
      · simp [e, h]
      · simp [e]

theorem nodup_unseen (seen names : List String) : (unseen seen names).Nodup := by
  induction names generalizing seen with
  | nil => simp [unseen]
  | cons n names ih =>
    by_cases h : n ∈ seen
    · simpa [unseen, h] using ih seen
    · simp only [unseen, h, if_false, List.nodup_cons]
      exact ⟨fun hm => (mem_unseen.1 hm).2 (List.mem_cons_self ..), ih _⟩

theorem nodup_distinct (names : List String) : (distinct names).Nodup := nodup_unseen [] names

@[simp] theorem mem_distinct {names : List String} {name : String} :
    name ∈ distinct names ↔ name ∈ names := by
  simp [distinct, mem_unseen]

@[simp] theorem map_name_numbered (first : Int) (names : List String) :
    (numbered first names).map (·.name) = names := by
  induction names generalizing first with
  | nil => rfl
  | cons name names ih => simp [numbered, ih]

end Metadata
end ValueDocs
