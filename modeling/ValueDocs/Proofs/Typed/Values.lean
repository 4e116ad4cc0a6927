import Mathlib.Data.List.Forall2
import ValueDocs.Loose.Reconciliation
import ValueDocs.Proofs.Json.Order
import ValueDocs.Proofs.Outcome

/-!
# Proofs/Typed/Values — values of texts and whole numbers, as the checks align them

The checks work on records that hold anything.  On values whose names are texts and whose places are
whole numbers they never fail, and they do what the functions on such values say: blocks have their
places (`Block.positionOf?_toLoose`), variants fall back alike (`Variants.get_toLoose`), and values
are aligned alike (`Reconciliation.reconcile_toLoose`).
-/

namespace ValueDocs

/-! ## Texts that may be absent -/

namespace Json

@[simp] theorem equal_ofText? (s t : Option String) :
    (ofText? s).equal (ofText? t) = (s == t) := by
  cases s <;> cases t <;> simp [ofText?, equal, marks]

@[simp] theorem ofText?_inj {s t : Option String} : ofText? s = ofText? t ↔ s = t := by
  cases s <;> cases t <;> simp [ofText?]

@[simp] theorem ofText?_eq_null {s : Option String} : ofText? s = .null ↔ s = none := by
  cases s <;> simp [ofText?]

theorem keptBy_ofText? (s : Option String) : (ofText? s).keptBy = .ok (ofText? s) := by
  cases s <;> rfl

end Json

/-! ## Places -/

namespace Block

theorem positionOf?_toLoose (b : Block) (offset : Int) :
    b.toLoose.positionOf? offset = .ok ((b.positionOf? offset).map Position.toLoose) := by
  obtain ⟨kind, text, range, columns, inlines, source⟩ := b
  cases range with
  | none => rfl
  | some r =>
    simp only [toLoose, Loose.Block.positionOf?, positionOf?, Option.map_some, Range.toLoose,
      Position.toLoose, List.getElem?_map, Option.getD_map, Json.plus, bind, Except.bind, pure,
      Except.pure, Option.bind, Int.sub_eq_add_neg]

end Block

/-! ## Variants -/

namespace Variants

variable (v : Variants) (tag : Tag)

theorem get?_toLoose : v.toLoose.get? (.ofText? tag) = (v.get? tag).map (·.map Block.toLoose) := by
  obtain ⟨entries⟩ := v
  rw [Loose.Variants.get?, get?, toLoose]
  dsimp only
  induction entries with
  | nil => rfl
  | cons e entries ih =>
    obtain ⟨t, blocks⟩ := e
    rw [List.map_cons, List.find?_cons, List.lookup_cons, entryToLoose, Json.equal_ofText?,
      Bool.beq_comm]
    cases tag == t with
    | true => rfl
    | false => exact ih

/-- Variants have the order of their tags. -/
theorem before?_sortKey (a b : Tag × List Block) :
    (Loose.Variants.sortKey (entryToLoose b)).before? (Loose.Variants.sortKey (entryToLoose a)) =
      some (!Tag.le a.1 b.1) := by
  obtain ⟨a, as⟩ := a
  obtain ⟨b, bs⟩ := b
  have hkey (t : String) (blocks : List Block) :
      Loose.Variants.sortKey (entryToLoose (some t, blocks)) = .arr [.bool true, .str t] := by
    by_cases h : t = "" <;>
      simp [Loose.Variants.sortKey, entryToLoose, Json.ofText?, Json.orElse, Json.truthy, h]
  have hnone (blocks : List Block) :
      Loose.Variants.sortKey (entryToLoose (none, blocks)) = .arr [.bool false, .str ""] := rfl
  cases a <;> cases b <;>
    simp only [hkey, hnone, Tag.le, Json.before?_arr_bool, Json.before?_arr_str, Json.before?_arr_nil]
  · simp
  · simp
  · simp
  · simp only [if_true]
    split
    · next h => simp [h]
    · rw [← decide_not, decide_eq_decide.2 String.not_le]

theorem sorted_toLoose : v.toLoose.sorted = .ok (v.sorted.map entryToLoose) :=
  Json.sortedOn_map fun a _ b _ => before?_sortKey a b

theorem get_toLoose : v.toLoose.get (.ofText? tag) = .ok ((v.get tag).map Block.toLoose) := by
  have hprimary : v.toLoose.get? .null = (v.get? none).map (·.map Block.toLoose) :=
    v.get?_toLoose none
  simp only [Loose.Variants.get, get, Json.keptBy_ofText?, bind, Except.bind, get?_toLoose,
    hprimary, sorted_toLoose]
  cases v.get? tag with
  | some blocks => rfl
  | none =>
    cases v.get? none with
    | some blocks => rfl
    | none =>
      have hempty : ((fun e => !e.2.isEmpty) ∘ entryToLoose) = fun e => !e.2.isEmpty := by
        funext e
        simp [entryToLoose]
      simp only [Option.map_none, List.find?_map, hempty, pure, Except.pure]
      cases v.sorted.find? fun e => !e.2.isEmpty <;> rfl

theorem isEmpty_toLoose : v.toLoose.isEmpty = v.isEmpty := by
  simp [Loose.Variants.isEmpty, isEmpty, toLoose, entryToLoose, List.all_map, Function.comp_def]

end Variants

namespace ReconciledValue

variable (v : ReconciledValue) (tag : Tag)

theorem hasContent_toLoose : v.toLoose.hasContent = v.hasContent := by
  rw [Loose.ReconciledValue.hasContent, hasContent, toLoose, Variants.isEmpty_toLoose]

theorem description?_toLoose :
    v.toLoose.description? (.ofText? tag) = .ok ((v.description? tag).map Block.toLoose) := by
  rw [Loose.ReconciledValue.description?, description?, toLoose, Variants.get_toLoose]
  cases v.content.get tag with
  | nil => rfl
  | cons b blocks =>
    cases h : b.kind == .description <;>
      simp [h, Block.toLoose, Option.filter, bind, Except.bind, pure, Except.pure]

theorem prose_toLoose :
    v.toLoose.prose (.ofText? tag) = .ok ((v.prose tag).map Block.toLoose) := by
  rw [Loose.ReconciledValue.prose, prose, toLoose, Variants.get_toLoose]
  cases v.content.get tag with
  | nil => rfl
  | cons b blocks =>
    by_cases h : b.kind = .description <;>
      simp [h, Block.toLoose, bind, Except.bind, pure, Except.pure]

end ReconciledValue

/-! ## What documented values say -/

namespace DocumentedValue

variable (v : DocumentedValue)

theorem descriptionBlock?_toLoose :
    v.toLoose.descriptionBlock? = v.descriptionBlock?.map Block.toLoose := by
  rw [Loose.DocumentedValue.descriptionBlock?, descriptionBlock?]
  by_cases h : v.shortDescription = "" <;> simp [toLoose, Json.truthy, h, Block.toLoose]

theorem contentBlocks_toLoose : v.toLoose.contentBlocks = v.contentBlocks.map Block.toLoose := by
  rw [Loose.DocumentedValue.contentBlocks, contentBlocks, descriptionBlock?_toLoose, List.map_append,
    Option.toList_map]
  congr 1
  simp only [toLoose, List.map_map]
  refine List.map_congr_left fun b _ => ?_
  cases h : b.source <;> simp [Block.toLoose, h]

end DocumentedValue

/-! ## Alignment -/

namespace Rank

theorem marks_toJson (r : Rank) : r.toJson.marks true = [⟨.number (.finite r.value), true⟩] := by
  cases r <;> rw [toJson, Json.marks] <;> rfl

/-- Ranks are compared by their values. -/
theorem before?_toJson (a b : Rank) : a.toJson.before? b.toJson = some (a.before b) := by
  have horder (r : Rank) : r.toJson.hasOrder = true := by cases r <;> rfl
  rw [Json.before?, horder, horder, marks_toJson, marks_toJson]
  simp only [Bool.and_true, if_true, Mark.listBefore?, Mark.before?, Mark.beforeAtom?,
    Magnitude.before, before]
  split
  · next h =>
    simp only [Mark.mk.injEq, Atom.number.injEq, Magnitude.finite.injEq] at h
    rw [h.1, Bool.eq_false_iff.2 (Rat.lt_irrefl (a := b.value))]
  · rfl

end Rank

/-- Declared values are sorted by their ranks. -/
theorem DeclaredValue.sortedOn_order (declared : List DeclaredValue) :
    Json.sortedOn (·.order) (declared.map toLoose) =
      .ok ((declared.mergeSort fun a b => a.order.le b.order).map toLoose) :=
  Json.sortedOn_map fun a _ b _ => by simp [toLoose, Rank.before?_toJson, Rank.le]

namespace Reconciliation

variable (caseSensitive : Bool) (documented : List DocumentedValue) (declared : List DeclaredValue)

/-- The key of a name, as a record holds it. -/
def keyJson (name : String) : Json := .str (String.ofList (nameKey caseSensitive name))

theorem keyOf_str (name : String) :
    Loose.Reconciliation.keyOf caseSensitive (.str name) = .ok (keyJson caseSensitive name) := by
  cases caseSensitive with
  | false => rfl
  | true => simp [Loose.Reconciliation.keyOf, keyJson, Json.keptBy]

/-- The declared values with their keys. -/
def keyed : List (Json × Loose.DeclaredValue) :=
  declared.map fun d => (keyJson caseSensitive d.name, d.toLoose)

theorem ownerOf?_keyed (name : String) :
    Loose.Reconciliation.ownerOf? (keyed caseSensitive declared) (keyJson caseSensitive name) =
      (ownerOf? caseSensitive declared name).map DeclaredValue.toLoose := by
  have hkey : ((fun d : Json × Loose.DeclaredValue => d.1.equal (keyJson caseSensitive name)) ∘
      fun d : DeclaredValue => (keyJson caseSensitive d.name, d.toLoose)) =
        fun d => nameKey caseSensitive d.name == nameKey caseSensitive name := by
    funext d
    rw [Bool.eq_iff_iff]
    simp [keyJson, String.ofList_inj]
  rw [Loose.Reconciliation.ownerOf?, keyed, List.find?_map, hkey, ownerOf?, Option.map_map]
  rfl

theorem assign_toLoose (v : DocumentedValue) :
    Loose.Reconciliation.assign caseSensitive (keyed caseSensitive declared) v.toLoose =
      .ok (v.toLoose, (ownerOf? caseSensitive declared v.name).map DeclaredValue.toLoose) := by
  have hname : v.toLoose.name = .str v.name := rfl
  have hvariant : v.toLoose.variant.keptBy = .ok v.toLoose.variant := Json.keptBy_ofText? _
  simp only [Loose.Reconciliation.assign, hname, keyOf_str, bind, Except.bind, ownerOf?_keyed,
    hvariant]
  cases ownerOf? caseSensitive declared v.name <;> rfl

/-- The documented values with the declared ones they belong to. -/
def assigned : List (Loose.DocumentedValue × Option Loose.DeclaredValue) :=
  documented.map fun v =>
    (v.toLoose, (ownerOf? caseSensitive declared v.name).map DeclaredValue.toLoose)

theorem documenting_assigned (name : String) :
    Loose.Reconciliation.documenting (assigned caseSensitive documented declared) (.str name) =
      (documenting caseSensitive declared documented name).map DocumentedValue.toLoose := by
  have hbelongs : ((fun a : Loose.DocumentedValue × Option Loose.DeclaredValue =>
      a.2.any fun d => d.name.equal (.str name)) ∘ fun v : DocumentedValue =>
        (v.toLoose, (ownerOf? caseSensitive declared v.name).map DeclaredValue.toLoose)) =
          fun v => ((ownerOf? caseSensitive declared v.name).map (·.name)) == some name := by
    funext v
    cases h : ownerOf? caseSensitive declared v.name <;> simp [h, DeclaredValue.toLoose]
  rw [Loose.Reconciliation.documenting, assigned, List.filter_map, hbelongs, List.map_map,
    documenting]
  rfl

theorem firstPerVariant_toLoose (vs : List DocumentedValue) :
    Loose.Reconciliation.firstPerVariant (vs.map DocumentedValue.toLoose) =
      (firstPerVariant vs).map DocumentedValue.toLoose := by
  induction vs with
  | nil => rfl
  | cons v vs ih =>
    have hvariant : ((fun w : Loose.DocumentedValue => !w.variant.equal v.toLoose.variant) ∘
        DocumentedValue.toLoose) = fun w => decide (w.variant ≠ v.variant) := by
      funext w
      simp [DocumentedValue.toLoose, Bool.beq_eq_decide_eq]
    rw [List.map_cons, Loose.Reconciliation.firstPerVariant, ih, List.filter_map, hvariant,
      firstPerVariant, List.map_cons]

theorem reconcileValue_toLoose (d : DeclaredValue) (vs : List DocumentedValue) :
    Loose.Reconciliation.reconcileValue d.toLoose (vs.map DocumentedValue.toLoose) =
      (reconcileValue d vs).toLoose := by
  rw [Loose.Reconciliation.reconcileValue, firstPerVariant_toLoose, reconcileValue]
  have hentry : (fun v : Loose.DocumentedValue => (v.variant, v.contentBlocks)) ∘
      DocumentedValue.toLoose = Variants.entryToLoose ∘ fun v => (v.variant, v.contentBlocks) := by
    funext v
    simp only [Function.comp_apply, DocumentedValue.contentBlocks_toLoose, Variants.entryToLoose]
    rfl
  simp only [ReconciledValue.toLoose, Variants.toLoose, List.map_map, List.head?_map, hentry]
  cases (firstPerVariant vs).head? <;> rfl

/-- **Values are aligned as their texts say.** -/
theorem reconcile_toLoose :
    Loose.Reconciliation.reconcile caseSensitive (documented.map DocumentedValue.toLoose)
      (declared.map DeclaredValue.toLoose) =
        .ok (reconcile caseSensitive documented declared).toLoose := by
  have hkeyed : (declared.map DeclaredValue.toLoose).mapM (fun d => do
      return (← Loose.Reconciliation.keyOf caseSensitive d.name, d)) =
        Except.ok (keyed caseSensitive declared) := by
    rw [Outcome.mapM_eq_ok_iff, keyed, List.forall₂_map_left_iff, List.forall₂_map_right_iff]
    exact List.forall₂_same.2 fun d _ => by
      simp [DeclaredValue.toLoose, keyOf_str, bind, Except.bind, pure, Except.pure]
  have hassigned : (documented.map DocumentedValue.toLoose).mapM
      (Loose.Reconciliation.assign caseSensitive (keyed caseSensitive declared)) =
        Except.ok (assigned caseSensitive documented declared) := by
    rw [Outcome.mapM_eq_ok_iff, assigned, List.forall₂_map_left_iff, List.forall₂_map_right_iff]
    exact List.forall₂_same.2 fun v _ => assign_toLoose caseSensitive declared v
  rw [Loose.Reconciliation.reconcile, hkeyed]
  simp only [bind, Except.bind, hassigned, DeclaredValue.sortedOn_order, pure, Except.pure]
  refine congrArg Except.ok ?_
  rw [toLoose, reconcile]
  congr 1
  · simp only [List.map_map]
    refine List.map_congr_left fun d _ => ?_
    rw [Function.comp_apply, Function.comp_apply, ← reconcileValue_toLoose, ← documenting_assigned]
    rfl
  · rw [assigned, List.filter_map, List.map_map]
    refine congrArg _ (List.filter_congr fun v _ => ?_)
    simp
  · rw [assigned, List.filter_map, List.map_map]
    refine congrArg _ (List.filter_congr fun v _ => ?_)
    simp
  · rw [List.filter_map]
    refine congrArg _ (List.filter_congr fun d _ => ?_)
    simp [DeclaredValue.toLoose, documenting_assigned]

end Reconciliation
end ValueDocs
