import ValueDocs.Proofs.Json.Sorted
import ValueDocs.Proofs.Records

/-!
# Proofs/DiagnosticRecords — diagnostics in a file of records

A log writes each diagnostic on a line of its own, as a data tree with its fields in order.  The
diagnostic is read back from such a tree, with the fields of its parts in order
(`Loose.Diagnostic.ofJson_sorted`), so what is read back has the tree of the diagnostic
(`Loose.Diagnostic.sorted_toJson_sorted`).  The tree of a diagnostic of texts that can be written at
all is ordinary, so it is read back from its line (`Diagnostic.isOrdinary_of_isWritable`).
-/

namespace ValueDocs

open Json

/-! ## Solutions and where they apply -/

namespace Loose

/-- Whether a solution has a place only if it puts something there. -/
def Solution.IsConsistent (s : Solution) : Prop :=
  s.replacement = .null → s.replacementRange = none

theorem Suggestion.isConsistent_of_solution {config : ValuesConfig} {name : Json}
    {range : Option Span} {declared : List DeclaredValue} {s : Solution}
    (h : solution config name range declared = .ok s) : s.IsConsistent := by
  obtain ⟨named, -, h⟩ := Outcome.bind_eq_ok_iff.1 h
  obtain ⟨best, -, h⟩ := Outcome.bind_eq_ok_iff.1 h
  cases best with
  | some best =>
    obtain rfl := Except.ok.inj h
    exact nofun
  | none =>
    obtain rfl := Except.ok.inj h
    exact fun _ => rfl

end Loose

/-! ## Reading a diagnostic with its fields in order -/

@[simp] theorem Json.truthy_sorted (j : Json) : j.sorted.truthy = j.truthy := by
  cases j with
  | arr js => rw [sorted, truthy, truthy, sortedItems_eq]; cases js <;> rfl
  | obj fs =>
    obtain ⟨gs, hgs, hperm⟩ := exists_sorted_obj fs
    have hempty : gs = [] ↔ fs = [] := by
      rw [← List.length_eq_zero_iff, hperm.length_eq, List.length_map, List.length_eq_zero_iff]
    rw [hgs, truthy, truthy, Bool.eq_iff_iff]
    simp [hempty]
  | _ => rfl

theorem Json.mapElements_sorted_map {α : Type} {encode : α → Json} {decode : Json → Outcome α}
    {f : α → α} {xs : List α} (h : ∀ x ∈ xs, decode (encode x).sorted = .ok (f x)) :
    (arr (xs.map encode)).sorted.mapElements decode = .ok (xs.map f) := by
  rw [sorted, sortedItems_eq, List.map_map, mapElements_arr, Outcome.mapM_eq_ok_iff,
    List.forall₂_map_left_iff, List.forall₂_map_right_iff]
  exact List.forall₂_same.2 h

@[simp] theorem Json.truthy_obj_cons (f : String × Json) (fs : Fields) :
    (obj (f :: fs)).truthy = true := rfl

@[simp] theorem DiagnosticKind.ofJson_name (k : DiagnosticKind) : ofJson (str k.name) = .ok k := by
  cases k <;> rfl

@[simp] theorem Severity.ofJson_name (s : Severity) : ofJson (str s.name) = .ok s := by
  cases s <;> rfl

theorem Json.sorted_eq_null {j : Json} : j.sorted = .null ↔ j = .null := by
  cases j <;> simp [sorted]

namespace Loose

/-- A place with the fields of its parts in order. -/
def Place.sorted (p : Place) : Place := ⟨p.line.sorted, p.column.sorted⟩

/-- A span with the fields of its parts in order. -/
def Span.sorted (s : Span) : Span := ⟨s.lower.sorted, s.upper.sorted⟩

/-- A solution with the fields of its parts in order. -/
def Solution.sorted (s : Solution) : Solution :=
  ⟨s.summary.sorted, s.replacement.sorted, s.replacementRange.map Span.sorted⟩

/-- A diagnostic with the fields of its parts in order. -/
def Diagnostic.sorted (d : Diagnostic) : Diagnostic :=
  { d with
    summary := d.summary.sorted
    source := d.source.sorted
    range := d.range.map Span.sorted
    solutions := d.solutions.map Solution.sorted }

theorem Place.ofJson_sorted (p : Place) : ofJson p.toJson.sorted = .ok p.sorted := by
  simp [toJson, ofJson, sorted, field_sorted, field_cons_of_ne, Except.map, bind, Except.bind, pure,
    Except.pure]

theorem Span.ofJson?_sorted (s : Option Span) :
    ofJson? (toJson? s).sorted = .ok (s.map Span.sorted) := by
  cases s with
  | none => rfl
  | some s =>
    simp [toJson?, toJson, ofJson?, sorted, field_sorted, field_cons_of_ne, Place.ofJson_sorted,
      Except.map, bind, Except.bind, pure, Except.pure]

theorem Solution.ofJson_sorted {s : Solution} (h : s.IsConsistent) :
    ofJson s.toJson.sorted = .ok s.sorted := by
  obtain ⟨summary, replacement, range⟩ := s
  by_cases hreplacement : replacement = .null
  · obtain rfl : range = none := h hreplacement
    simp [toJson, ofJson, sorted, hreplacement, field_sorted, get_sorted, get_cons_of_ne,
      Span.get?, Span.ofJson?, truthy, Except.map, bind, Except.bind, pure, Except.pure]
  · simp [toJson, ofJson, sorted, hreplacement, field_sorted, get_sorted, get_cons_of_ne, Span.get?,
      Span.ofJson?_sorted, Except.map, bind, Except.bind, pure, Except.pure]

/-- **A diagnostic is read back with the fields of its parts in order**, if its solutions are
consistent. -/
theorem Diagnostic.ofJson_sorted {d : Diagnostic} (h : ∀ s ∈ d.solutions, s.IsConsistent) :
    ofJson d.toJson.sorted = .ok d.sorted := by
  obtain ⟨kind, summary, source, range, solutions, severity⟩ := d
  have hsolutions : (arr (solutions.map Solution.toJson)).sorted.mapElements Solution.ofJson =
      .ok (solutions.map Solution.sorted) :=
    mapElements_sorted_map fun s hs => Solution.ofJson_sorted (h s hs)
  simp [toJson, ofJson, sorted, itemsOf, Span.get?, field_sorted, get_sorted, field_cons_of_ne,
    get_cons_of_ne, Span.ofJson?_sorted, hsolutions, Except.map, bind, Except.bind, pure,
    Except.pure]

/-! Putting the fields of the parts in order changes a tree in nothing but the order of fields. -/

theorem Place.sorted_toJson_sorted (p : Place) : p.sorted.toJson.sorted = p.toJson.sorted :=
  sorted_obj_congr (by simp [sorted, sorted_sorted])

theorem Span.sorted_toJson?_sorted (s : Option Span) :
    (toJson? (s.map Span.sorted)).sorted = (toJson? s).sorted := by
  cases s with
  | none => rfl
  | some s => exact sorted_obj_congr (by simp [sorted, Place.sorted_toJson_sorted])

theorem Solution.sorted_toJson_sorted (s : Solution) :
    s.sorted.toJson.sorted = s.toJson.sorted := by
  refine sorted_obj_congr ?_
  by_cases h : s.replacement = .null
  · simp [sorted, h, sorted_sorted]
  · simp [sorted, h, sorted_eq_null, sorted_sorted, Span.sorted_toJson?_sorted]

theorem Diagnostic.sorted_toJson_sorted (d : Diagnostic) :
    d.sorted.toJson.sorted = d.toJson.sorted := by
  have hsolutions : (arr (d.solutions.map (Solution.toJson ∘ Solution.sorted))).sorted =
      (arr (d.solutions.map Solution.toJson)).sorted := by
    rw [Json.sorted, Json.sorted, sortedItems_eq, sortedItems_eq, List.map_map, List.map_map]
    exact congrArg arr (List.map_congr_left fun s _ => s.sorted_toJson_sorted)
  exact sorted_obj_congr
    (by simp [sorted, sorted_sorted, Span.sorted_toJson?_sorted, hsolutions])

end Loose

/-! ## Writing a record -/

namespace Json

theorem areWritable_iff {js : List Json} :
    areWritable js = true ↔ ∀ j ∈ js, j.isWritable = true := by
  induction js with
  | nil => exact iff_of_true rfl (List.forall_mem_nil _)
  | cons j js ih => rw [List.forall_mem_cons, ← ih, areWritable, Bool.and_eq_true]

theorem areOrdinary_iff {js : List Json} : AreOrdinary js ↔ ∀ j ∈ js, j.IsOrdinary := by
  induction js with
  | nil => exact iff_of_true trivial (List.forall_mem_nil _)
  | cons j js ih =>
    rw [List.forall_mem_cons, ← ih]
    rfl

@[simp] theorem isOrdinary_ofText? (t : Option String) : (ofText? t).IsOrdinary := by
  cases t <;> trivial

end Json

theorem Range.isOrdinary_of_isWritable {r : Option Range}
    (h : (toJson? r).isWritable = true) : (toJson? r).IsOrdinary := by
  cases r with
  | none => trivial
  | some r =>
    simpa [toJson?, toJson, Position.toJson, isWritable, areWritableFields, IsOrdinary,
      AreOrdinaryFields] using h

theorem Solution.isOrdinary_of_isWritable {s : Solution} (h : s.toJson.isWritable = true) :
    s.toJson.IsOrdinary := by
  obtain ⟨summary, replacement, range⟩ := s
  cases replacement with
  | none => simp [toJson, IsOrdinary, AreOrdinaryFields]
  | some r =>
    have hrange : (Range.toJson? range).isWritable = true := by
      simpa [toJson, isWritable, areWritableFields] using h
    simpa [toJson, IsOrdinary, AreOrdinaryFields] using Range.isOrdinary_of_isWritable hrange

/-- A diagnostic that can be written is ordinary. -/
theorem Diagnostic.isOrdinary_of_isWritable {d : Diagnostic} (h : d.toJson.isWritable = true) :
    d.toJson.IsOrdinary := by
  obtain ⟨-, hrange, hsolutions⟩ : (ofText? d.source).isWritable = true ∧
      (Range.toJson? d.range).isWritable = true ∧
      areWritable (d.solutions.map Solution.toJson) = true := by
    simpa [toJson, isWritable, areWritableFields] using h
  have hall : AreOrdinary (d.solutions.map Solution.toJson) := areOrdinary_iff.2 fun j hj => by
    have hj' := areWritable_iff.1 hsolutions j hj
    obtain ⟨s, hs, rfl⟩ := List.mem_map.1 hj
    exact Solution.isOrdinary_of_isWritable hj'
  simp [toJson, IsOrdinary, AreOrdinaryFields, Range.isOrdinary_of_isWritable hrange, hall]

end ValueDocs
