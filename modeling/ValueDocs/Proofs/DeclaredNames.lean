import Mathlib.Data.List.Nodup
import ValueDocs.Proofs.Outcome
import ValueDocs.Proofs.Suppliers

/-!
# Proofs/DeclaredNames — which names metadata declares

Metadata lists items, each of which declares at most one name.  The values read from it are the
first occurrences of these names, numbered from zero (`Metadata.declaredValues_isExtraction`).  A
list says the same alone and under a field, and so does null.  A text does not: alone it is refused,
and under a field each of its characters is an item.
-/

namespace ValueDocs

/-- Whether two outcomes are the same: one result, or a failure for a wrong type in both. -/
structure Outcome.Alike {α : Type} (x y : Outcome α) : Prop where
  ok_iff : ∀ a, x = .ok a ↔ y = .ok a
  wrongType_iff : (∃ f, x = .error f ∧ f.kind = .wrongType) ↔
    ∃ f, y = .error f ∧ f.kind = .wrongType

theorem Outcome.Alike.refl {α : Type} (x : Outcome α) : x.Alike x := ⟨fun _ => .rfl, .rfl⟩

namespace Metadata

/-! ## Items and their names -/

/-- An item and the name it declares: a text declares itself, an object the first text among the
fields that may name a value. -/
inductive Names : Json → String → Prop
  | text (s : String) : Names (.str s) s
  | field {fields : Json.Fields} {before after : List String} {key name : String}
      (hkeys : nameFields = before ++ key :: after) (hkey : fields.lookup key = some (.str name))
      (hbefore : ∀ k ∈ before, ∀ s, fields.lookup k ≠ some (.str s)) : Names (.obj fields) name

/-- Items and the names they declare; an item without a name is passed over. -/
inductive AllNames : List Json → List String → Prop
  | nil : AllNames [] []
  | named {item : Json} {name : String} {items : List Json} {names : List String}
      (h : Names item name) (rest : AllNames items names) : AllNames (item :: items) (name :: names)
  | unnamed {item : Json} {items : List Json} {names : List String}
      (h : ∀ name, ¬Names item name) (rest : AllNames items names) : AllNames (item :: items) names

/-- What is under a field for a list of values, and the items that are read from it. -/
inductive Yields : Json → List Json → Prop
  | empty {list : Json} (h : list.truthy = false) : Yields list []
  | items (js : List Json) : Yields (.arr js) js
  /-- A text yields its characters. -/
  | characters (s : String) : Yields (.str s) (s.toList.map fun c => .str c.toString)
  | fieldNames (fields : Json.Fields) : Yields (.obj fields) (fields.map fun f => .str f.1)

/-- Metadata and the items it lists: those of a list, or those under the first field that may hold
a list. -/
inductive Lists : Json → List Json → Prop
  | null : Lists .null []
  | items (js : List Json) : Lists (.arr js) js
  | field {fields : Json.Fields} {before after : List String} {key : String} {list : Json}
      {js : List Json} (hkeys : listFields = before ++ key :: after)
      (hkey : fields.lookup key = some list) (hbefore : ∀ k ∈ before, fields.lookup k = none)
      (hlist : Yields list js) : Lists (.obj fields) js
  | nothing {fields : Json.Fields} (h : ∀ key ∈ listFields, fields.lookup key = none) :
      Lists (.obj fields) []

theorem textField?_eq_some_iff {fields : Json.Fields} {key name : String} :
    textField? fields key = some name ↔ fields.lookup key = some (.str name) := by
  unfold textField?
  split
  · next s hs => rw [hs, Option.some_inj, Option.some_inj, Json.str.injEq]
  · next hs => exact iff_of_false nofun (hs name)

theorem nameOf?_eq_some_iff {item : Json} {name : String} :
    nameOf? item = some name ↔ Names item name := by
  constructor
  · intro h
    unfold nameOf? at h
    split at h
    · exact Option.some.inj h ▸ .text _
    · obtain ⟨before, key, after, hkeys, hkey, hbefore⟩ := List.findSome?_eq_some_iff.1 h
      refine .field hkeys (textField?_eq_some_iff.1 hkey) fun k hk s hs => ?_
      exact nomatch (textField?_eq_some_iff.2 hs).symm.trans (hbefore k hk)
    · cases h
  · rintro (_ | ⟨hkeys, hkey, hbefore⟩)
    · rfl
    · refine List.findSome?_eq_some_iff.2
        ⟨_, _, _, hkeys, textField?_eq_some_iff.2 hkey, fun k hk => ?_⟩
      exact Option.eq_none_iff_forall_ne_some.2 fun s hs =>
        hbefore k hk s (textField?_eq_some_iff.1 hs)

theorem allNames_filterMap (items : List Json) : AllNames items (items.filterMap nameOf?) := by
  induction items with
  | nil => exact .nil
  | cons item items ih =>
    cases h : nameOf? item with
    | none =>
      rw [List.filterMap_cons_none h]
      exact .unnamed (fun name hname => nomatch h.symm.trans (nameOf?_eq_some_iff.2 hname)) ih
    | some name =>
      rw [List.filterMap_cons_some h]
      exact .named (nameOf?_eq_some_iff.1 h) ih

/-! ## The list in metadata -/

/-- What is under a field is read as it yields, if it yields anything. -/
theorem elements_eq_ok_iff {list : Json} {js : List Json} :
    (if list.truthy then list.elements else .ok []) = .ok js ↔ Yields list js := by
  constructor
  · intro h
    split at h
    · unfold Json.elements at h
      split at h
      · exact Except.ok.inj h ▸ .items _
      · exact Except.ok.inj h ▸ .characters _
      · exact Except.ok.inj h ▸ .fieldNames _
      · cases h
    · next hempty => exact Except.ok.inj h ▸ .empty (Bool.not_eq_true _ ▸ hempty)
  · rintro (hempty | js | s | fields)
    · rw [if_neg (by simp [hempty])]
    · cases js <;> rfl
    · by_cases hs : s = ""
      · subst hs
        rfl
      · rw [if_pos (by simpa [Json.truthy] using hs)]
        rfl
    · cases fields <;> rfl

/-- **The items that are read are those that metadata lists.** -/
theorem items_eq_ok_iff {metadata : Json} {js : List Json} :
    items metadata = .ok js ↔ Lists metadata js := by
  constructor
  · intro h
    unfold items at h
    split at h
    · exact Except.ok.inj h ▸ .null
    · split at h
      · next hlist =>
        obtain ⟨before, key, after, hkeys, hkey, hbefore⟩ := List.findSome?_eq_some_iff.1 hlist
        exact .field hkeys hkey hbefore (elements_eq_ok_iff.1 h)
      · next hnone => exact Except.ok.inj h ▸ .nothing (List.findSome?_eq_none_iff.1 hnone)
    · cases h
    · next metadata hnull hobj hstr =>
      unfold Json.elements at h
      split at h
      · exact Except.ok.inj h ▸ .items _
      · exact absurd rfl (hstr _)
      · exact absurd rfl (hobj _)
      · cases h
  · rintro (_ | js | ⟨hkeys, hkey, hbefore, hlist⟩ | hnone)
    · rfl
    · rfl
    · rw [items, List.findSome?_eq_some_iff.2 ⟨_, _, _, hkeys, hkey, hbefore⟩]
      exact elements_eq_ok_iff.2 hlist
    · rw [items, List.findSome?_eq_none_iff.2 hnone]

theorem kind_of_elements {list : Json} {f : Failure} (h : list.elements = .error f) :
    f.kind = .wrongType := by
  unfold Json.elements at h
  split at h
  · cases h
  · cases h
  · cases h
  · exact Except.error.inj h ▸ rfl

/-- Metadata that lists nothing is of a wrong type. -/
theorem kind_of_items {metadata : Json} {f : Failure} (h : items metadata = .error f) :
    f.kind = .wrongType := by
  unfold items at h
  split at h
  · cases h
  · split at h
    · split at h
      · exact kind_of_elements h
      · cases h
    · cases h
  · exact Except.error.inj h ▸ rfl
  · exact kind_of_elements h

/-! ## First occurrences -/

/-- The first occurrences of names, in their order. -/
structure AreFirst (names firsts : List String) : Prop where
  nodup : firsts.Nodup
  mem_iff : ∀ name, name ∈ firsts ↔ name ∈ names
  inOrder : firsts.Pairwise fun a b => names.idxOf a < names.idxOf b

theorem pairwise_unseen (seen names : List String) :
    (unseen seen names).Pairwise fun a b => names.idxOf a < names.idxOf b := by
  induction names generalizing seen with
  | nil => exact .nil
  | cons n names ih =>
    -- names other than the first stand one place further down
    have hshift {seen : List String} (hn : n ∈ seen) :
        (unseen seen names).Pairwise fun a b => (n :: names).idxOf a < (n :: names).idxOf b := by
      refine (ih seen).imp_of_mem fun {a b} ha hb hlt => ?_
      have hne {a : String} (ha : a ∈ unseen seen names) : n ≠ a := by
        rintro rfl
        exact (mem_unseen.1 ha).2 hn
      rw [List.idxOf_cons_ne _ (hne ha), List.idxOf_cons_ne _ (hne hb)]
      exact Nat.succ_lt_succ hlt
    rw [unseen]
    split
    · next hseen => exact hshift hseen
    · refine .cons (fun b hb => ?_) (hshift (List.mem_cons_self ..))
      have hne : n ≠ b := by
        rintro rfl
        exact (mem_unseen.1 hb).2 (List.mem_cons_self ..)
      rw [List.idxOf_cons_self, List.idxOf_cons_ne _ hne]
      exact Nat.succ_pos _

theorem areFirst_distinct (names : List String) : AreFirst names (distinct names) :=
  ⟨nodup_distinct names, fun _ => mem_distinct, pairwise_unseen [] names⟩

/-! ## The values of metadata -/

/-- Whether an outcome is that of reading the values of metadata. -/
structure IsExtraction (metadata : Json) (result : Outcome (List DeclaredValue)) : Prop where
  /-- The values have the first occurrences of the names of what is listed. -/
  names : ∀ values, result = .ok values → ∃ items names,
    Lists metadata items ∧ AllNames items names ∧ AreFirst names (values.map (·.name))
  numbered : ∀ values, result = .ok values → ∀ (k : Nat) (v : DeclaredValue),
    values[k]? = some v → v.order = .whole k
  /-- There are none only where nothing is listed, for the type of the metadata. -/
  fails : ∀ f, result = .error f → f.kind = .wrongType ∧ ∀ items, ¬Lists metadata items

theorem declaredValues_eq_ok_iff {metadata : Json} {values : List DeclaredValue} :
    declaredValues metadata = .ok values ↔
      ∃ js, Lists metadata js ∧ values = numbered 0 (distinct (js.filterMap nameOf?)) := by
  rw [declaredValues, Outcome.bind_eq_ok_iff]
  simp only [items_eq_ok_iff]
  exact exists_congr fun js => and_congr_right fun _ => by
    rw [eq_comm]
    exact ⟨fun h => (Except.ok.inj h.symm).symm ▸ rfl, fun h => congrArg Except.ok h⟩

theorem isExtraction_declaredValues (metadata : Json) :
    IsExtraction metadata (declaredValues metadata) := by
  refine ⟨fun values h => ?_, fun values h k v hv => ?_, fun f h => ?_⟩
  · obtain ⟨js, hjs, rfl⟩ := declaredValues_eq_ok_iff.1 h
    refine ⟨js, _, hjs, allNames_filterMap js, ?_⟩
    rw [map_name_numbered]
    exact areFirst_distinct _
  · obtain ⟨js, -, rfl⟩ := declaredValues_eq_ok_iff.1 h
    rw [numbered_eq_mapIdx, List.getElem?_mapIdx] at hv
    obtain ⟨name, -, rfl⟩ := Option.map_eq_some_iff.1 hv
    exact congrArg Rank.whole (Int.zero_add k)
  · cases hitems : items metadata with
    | ok js =>
      rw [declaredValues, hitems] at h
      cases h
    | error g =>
      rw [declaredValues, hitems] at h
      obtain rfl := Except.error.inj h
      refine ⟨kind_of_items hitems, fun js hjs => ?_⟩
      exact nomatch hitems.symm.trans (items_eq_ok_iff.2 hjs)

/-! ## Alone and under a field -/

/-- What metadata gives for its values: null, a text or a list. -/
inductive IsGiven : Json → Prop
  | null : IsGiven .null
  | text {s : String} (h : s ≠ "") : IsGiven (.str s)
  | list (js : List Json) : IsGiven (.arr js)

/-- Under one field that may hold a list, the items are those of what is there. -/
theorem items_field {key : String} (hkey : key ∈ listFields) (list : Json) :
    items (.obj [(key, list)]) = if list.truthy then list.elements else .ok [] := by
  simp only [listFields, List.mem_cons, List.not_mem_nil, or_false] at hkey
  rcases hkey with rfl | rfl | rfl | rfl <;> rfl

/-- **A list says the same alone and under a field**, and null does; a text does not. -/
theorem alike_field_iff {key : String} (hkey : key ∈ listFields) {given : Json}
    (h : IsGiven given) :
    (declaredValues (.obj [(key, given)])).Alike (declaredValues given) ↔
      ∀ s, given ≠ .str s := by
  have hitems := items_field hkey given
  cases h with
  | null =>
    rw [declaredValues, hitems]
    exact iff_of_true (.refl _) nofun
  | list js =>
    rw [declaredValues, hitems, elements_eq_ok_iff.2 (.items js)]
    exact iff_of_true (.refl _) nofun
  | @text s hs =>
    refine iff_of_false (fun halike => ?_) fun hne => hne s rfl
    rw [declaredValues, hitems, elements_eq_ok_iff.2 (.characters s)] at halike
    exact nomatch (halike.ok_iff _).1 rfl

/-- **Metadata declares the names of the items it lists**, each once, in the order of their first
occurrence; and it makes no difference whether what is given stands under a field, unless it is a
text. -/
theorem declaredValues_isExtraction (metadata : Json) :
    IsExtraction metadata (declaredValues metadata) ∧
      (IsGiven metadata → ∀ key ∈ listFields,
        ((declaredValues (.obj [(key, metadata)])).Alike (declaredValues metadata) ↔
          ∀ s, metadata ≠ .str s)) :=
  ⟨isExtraction_declaredValues metadata, fun h _ hkey => alike_field_iff hkey h⟩

/-- Months, one of them listed twice, one by an object, and a number. -/
def listedMonths : Json :=
  .arr [.str "May", .obj [("value", .int 6), ("name", .str "June")], .int 7, .str "May"]

/-- The months alone and under a field. -/
theorem declaredValues_isExtraction_listedMonths :
    declaredValues listedMonths = .ok [⟨"May", .whole 0⟩, ⟨"June", .whole 1⟩] ∧
    IsExtraction listedMonths (declaredValues listedMonths) ∧
    "cases" ∈ listFields ∧ IsGiven listedMonths ∧
    (declaredValues (.obj [("cases", listedMonths)])).Alike (declaredValues listedMonths) := by
  have hkey : "cases" ∈ listFields := by decide
  have hgiven : IsGiven listedMonths := .list _
  obtain ⟨hextraction, halike⟩ := declaredValues_isExtraction listedMonths
  exact ⟨rfl, hextraction, hkey, hgiven, (halike hgiven _ hkey).2 nofun⟩

/-- A text alone is refused; under a field it declares its characters. -/
theorem not_alike_text :
    declaredValues (.str "May") = .error .metadataIsText ∧
    declaredValues (.obj [("cases", .str "May")]) =
      .ok [⟨"M", .whole 0⟩, ⟨"a", .whole 1⟩, ⟨"y", .whole 2⟩] ∧
    ¬(declaredValues (.obj [("cases", .str "May")])).Alike (declaredValues (.str "May")) :=
  ⟨rfl, rfl, fun h => nomatch (h.ok_iff _).1 rfl⟩

end Metadata
end ValueDocs
