import Mathlib.Algebra.Order.Ring.Unbundled.Rat
import Mathlib.Data.List.Forall2
import ValueDocs.Proofs.Contents
import ValueDocs.Proofs.Suppliers

/-!
# Proofs/Alignment — what aligning documented values with declared ones means

A documented value is about the first declared value with its key, and a declared value is given,
for each variant, what the first documented value about it says.  With the declared values in their
order this is all that there is to a reconciliation: it meets these conditions, and any other that
meets them is the same (`reconcile_isAlignment`).
-/

namespace ValueDocs

/-! ## First items -/

section First

variable {α : Type} {p : α → Prop} {xs : List α} {x : α}

/-- The first item of a list with a property. -/
def IsFirst (p : α → Prop) (xs : List α) (x : α) : Prop :=
  ∃ before after, xs = before ++ x :: after ∧ p x ∧ ∀ y ∈ before, ¬ p y

theorem find?_eq_some_iff_isFirst [DecidablePred p] :
    xs.find? (p ·) = some x ↔ IsFirst p xs x := by
  rw [List.find?_eq_some_iff_append, decide_eq_true_iff, IsFirst]
  simp only [Bool.not_eq_true', decide_eq_false_iff_not]
  exact ⟨fun ⟨hx, before, after, h, hbefore⟩ => ⟨before, after, h, hx, hbefore⟩,
    fun ⟨before, after, h, hx, hbefore⟩ => ⟨hx, before, after, h, hbefore⟩⟩

instance [DecidableEq α] [DecidablePred p] : Decidable (IsFirst p xs x) :=
  decidable_of_iff _ find?_eq_some_iff_isFirst

end First

namespace Reconciliation

variable (caseSensitive : Bool) (documented : List DocumentedValue) (declared : List DeclaredValue)

/-! ## The specification -/

/-- The declared value that a documented name is about: the first with its key. -/
def IsOwner (name : String) (d : DeclaredValue) : Prop :=
  IsFirst (fun e => nameKey caseSensitive e.name = nameKey caseSensitive name) declared d

instance (name : String) (d : DeclaredValue) :
    Decidable (IsOwner caseSensitive declared name d) :=
  inferInstanceAs (Decidable (IsFirst _ _ _))

/-- A reconciled value is a declared one with what the first documented value about it says in each
variant. -/
structure IsReconciled (d : DeclaredValue) (v : ReconciledValue) : Prop where
  name : v.name = d.name
  order : v.order = d.order
  nodup_tags : v.content.tags.Nodup
  content : ∀ tag blocks, v.content.get? tag = some blocks ↔ ∃ w,
    IsFirst (fun w => IsOwner caseSensitive declared w.name d ∧ w.variant = tag) documented w ∧
      w.contentBlocks = blocks
  source : ∀ source, v.source = some source ↔ ∃ w,
    IsFirst (fun w => IsOwner caseSensitive declared w.name d) documented w ∧
      w.source = some source

/-- Whether nothing documents a declared value. -/
def IsUndocumented (d : DeclaredValue) : Prop :=
  ∀ v ∈ documented, ¬ IsOwner caseSensitive declared v.name d

instance (d : DeclaredValue) : Decidable (IsUndocumented caseSensitive documented declared d) :=
  inferInstanceAs (Decidable (∀ v ∈ documented, _))

/-- What a reconciliation of documented with declared values is. -/
structure IsAlignment (r : Reconciliation) : Prop where
  matched : r.matched = documented.filter fun v =>
    ∃ d ∈ declared, nameKey caseSensitive d.name = nameKey caseSensitive v.name
  extra : r.extra = documented.filter fun v =>
    ∀ d ∈ declared, nameKey caseSensitive d.name ≠ nameKey caseSensitive v.name
  /-- The declared values in order are reconciled, and those that nothing documents are implicit. -/
  ordered : ∃ ordered, IsStableSort (·.order.value) declared ordered ∧
    List.Forall₂ (IsReconciled caseSensitive documented declared) ordered r.values ∧
    r.implicit = ordered.filter fun d => IsUndocumented caseSensitive documented declared d
  /-- An implicit value has no content. -/
  implicit : ∀ d ∈ r.implicit, ∀ v ∈ r.values, v.name = d.name → v.content.entries = []

/-- Two reconciliations are the same. -/
structure Same (r s : Reconciliation) : Prop where
  values : List.Forall₂ ReconciledValue.Same r.values s.values
  matched : r.matched = s.matched
  extra : r.extra = s.extra
  implicit : r.implicit = s.implicit

variable {caseSensitive documented declared}

/-! ## Owners -/

theorem ownerOf?_eq_some_iff {name : String} {d : DeclaredValue} :
    ownerOf? caseSensitive declared name = some d ↔ IsOwner caseSensitive declared name d := by
  rw [IsOwner, ← find?_eq_some_iff_isFirst, ownerOf?]
  simp only [beq_eq_decide]

theorem isSome_ownerOf?_iff {name : String} :
    (ownerOf? caseSensitive declared name).isSome = true ↔
      ∃ d ∈ declared, nameKey caseSensitive d.name = nameKey caseSensitive name := by
  simp [ownerOf?]

theorem IsOwner.mem {name : String} {d : DeclaredValue}
    (h : IsOwner caseSensitive declared name d) : d ∈ declared :=
  List.mem_of_find?_eq_some (ownerOf?_eq_some_iff.2 h)

/-- The documented values under the name of a declared value are those about it. -/
theorem documenting_eq_filter_isOwner (hnames : (declared.map (·.name)).Nodup)
    {d : DeclaredValue} (hd : d ∈ declared) :
    documenting caseSensitive declared documented d.name =
      documented.filter fun v => IsOwner caseSensitive declared v.name d := by
  refine List.filter_congr fun v _ => ?_
  rw [Bool.eq_iff_iff, decide_eq_true_iff, beq_iff_eq, Option.map_eq_some_iff,
    ← ownerOf?_eq_some_iff]
  constructor
  · rintro ⟨e, he, hname⟩
    rwa [← List.inj_on_of_nodup_map hnames (List.mem_of_find?_eq_some he) hd hname]
  · exact fun h => ⟨d, h, rfl⟩

/-! ## Content -/

theorem nodup_tags_reconcileValue (d : DeclaredValue) (vs : List DocumentedValue) :
    (reconcileValue d vs).content.tags.Nodup := by
  change (((firstPerVariant vs).map _).map _).Nodup
  rw [List.map_map]
  exact nodup_map_variant_firstPerVariant vs

/-- Looking up a variant finds what the first value of the variant says. -/
theorem get?_content_reconcileValue {d : DeclaredValue} {vs : List DocumentedValue} {tag : Tag}
    {blocks : List Block} : (reconcileValue d vs).content.get? tag = some blocks ↔
      ∃ w, vs.find? (·.variant == tag) = some w ∧ w.contentBlocks = blocks := by
  rw [Variants.get?_eq_some_iff (nodup_tags_reconcileValue d vs)]
  change (tag, blocks) ∈ (firstPerVariant vs).map _ ↔ _
  rw [List.mem_map]
  constructor
  · rintro ⟨w, hw, h⟩
    obtain ⟨rfl, rfl⟩ := Prod.mk.inj h
    exact ⟨w, mem_firstPerVariant.1 hw, rfl⟩
  · rintro ⟨w, hw, rfl⟩
    obtain rfl : w.variant = tag := by simpa using List.find?_some hw
    exact ⟨w, mem_firstPerVariant.2 hw, rfl⟩

/-- **A declared value is given what the values about it say.** -/
theorem isReconciled_reconcileValue (hnames : (declared.map (·.name)).Nodup) {d : DeclaredValue}
    (hd : d ∈ declared) : IsReconciled caseSensitive documented declared d
      (reconcileValue d (documenting caseSensitive declared documented d.name)) := by
  rw [documenting_eq_filter_isOwner hnames hd]
  refine ⟨rfl, rfl, nodup_tags_reconcileValue d _, fun tag blocks => ?_, fun source => ?_⟩
  · rw [get?_content_reconcileValue, List.find?_filter]
    simp only [← find?_eq_some_iff_isFirst, Bool.decide_and, Bool.decide_eq_true, beq_eq_decide]
  · rw [source_eq_head?, List.head?_filter, Option.bind_eq_some_iff]
    simp only [find?_eq_some_iff_isFirst]

theorem IsReconciled.entries_eq_nil {d : DeclaredValue} {v : ReconciledValue}
    (h : IsReconciled caseSensitive documented declared d v)
    (hd : IsUndocumented caseSensitive documented declared d) : v.content.entries = [] := by
  refine List.eq_nil_iff_forall_not_mem.2 fun (tag, blocks) he => ?_
  obtain ⟨w, ⟨before, after, rfl, ⟨howner, -⟩, -⟩, -⟩ :=
    (h.content tag blocks).1 ((Variants.get?_eq_some_iff h.nodup_tags).2 he)
  exact hd w (by simp) howner

/-- A declared value is reconciled in one way only. -/
theorem IsReconciled.same {d : DeclaredValue} {v w : ReconciledValue}
    (hv : IsReconciled caseSensitive documented declared d v)
    (hw : IsReconciled caseSensitive documented declared d w) : v.Same w where
  name := hv.name.trans hw.name.symm
  order := hv.order.trans hw.order.symm
  content := Variants.same_of_get?_eq hv.nodup_tags hw.nodup_tags fun tag =>
    Option.ext fun blocks => (hv.content tag blocks).trans (hw.content tag blocks).symm
  source := Option.ext fun source => (hv.source source).trans (hw.source source).symm

/-! ## The whole reconciliation -/

theorem forall₂_of_common {α β γ : Type} {R : α → β → Prop} {S : α → γ → Prop} {T : β → γ → Prop}
    (h : ∀ x y z, R x y → S x z → T y z) : ∀ {xs ys zs}, List.Forall₂ R xs ys →
      List.Forall₂ S xs zs → List.Forall₂ T ys zs
  | _, _, _, .nil, .nil => .nil
  | _, _, _, .cons hr hrs, .cons hs hss => .cons (h _ _ _ hr hs) (forall₂_of_common h hrs hss)

theorem isEmpty_documenting_iff (hnames : (declared.map (·.name)).Nodup) {d : DeclaredValue}
    (hd : d ∈ declared) :
    (documenting caseSensitive declared documented d.name).isEmpty = true ↔
      IsUndocumented caseSensitive documented declared d := by
  rw [documenting_eq_filter_isOwner hnames hd, List.isEmpty_iff, List.filter_eq_nil_iff]
  simp [IsUndocumented]

/-- **Two alignments are the same.** -/
theorem IsAlignment.same {r s : Reconciliation}
    (hr : IsAlignment caseSensitive documented declared r)
    (hs : IsAlignment caseSensitive documented declared s) : r.Same s := by
  obtain ⟨ordered, hordered, hvalues, himplicit⟩ := hr.ordered
  obtain ⟨ordered', hordered', hvalues', himplicit'⟩ := hs.ordered
  obtain rfl := hordered.unique hordered'
  exact ⟨forall₂_of_common (fun _ _ _ hv hw => hv.same hw) hvalues hvalues',
    hr.matched.trans hs.matched.symm, hr.extra.trans hs.extra.symm,
    himplicit.trans himplicit'.symm⟩

theorem matched_reconcile_eq : (reconcile caseSensitive documented declared).matched =
    documented.filter fun v =>
      ∃ d ∈ declared, nameKey caseSensitive d.name = nameKey caseSensitive v.name := by
  refine List.filter_congr fun v _ => ?_
  rw [Bool.eq_iff_iff, isSome_ownerOf?_iff, decide_eq_true_iff]

theorem extra_reconcile_eq : (reconcile caseSensitive documented declared).extra =
    documented.filter fun v =>
      ∀ d ∈ declared, nameKey caseSensitive d.name ≠ nameKey caseSensitive v.name := by
  refine List.filter_congr fun v _ => ?_
  rw [Bool.eq_iff_iff, Bool.not_eq_true', ← Bool.not_eq_true, isSome_ownerOf?_iff,
    decide_eq_true_iff]
  push Not
  rfl

/-- **Reconciliation aligns** documented values with declared ones, and no other reconciliation
does. -/
theorem reconcile_isAlignment (hnames : (declared.map (·.name)).Nodup) :
    IsAlignment caseSensitive documented declared (reconcile caseSensitive documented declared) ∧
      ∀ r, IsAlignment caseSensitive documented declared r →
        r.Same (reconcile caseSensitive documented declared) := by
  have hordered : IsStableSort (·.order.value) declared
      (declared.mergeSort fun a b => a.order.le b.order) :=
    .mergeSort (fun a b => Rank.le_iff (a := a.order) (b := b.order)) declared
  have hmem {d : DeclaredValue} (hd : d ∈ declared.mergeSort fun a b => a.order.le b.order) :
      d ∈ declared := hordered.perm.subset hd
  have hempty {d : DeclaredValue} (hd : d ∈ declared) :
      (documenting caseSensitive declared documented d.name).isEmpty =
        decide (IsUndocumented caseSensitive documented declared d) := by
    rw [Bool.eq_iff_iff, isEmpty_documenting_iff hnames hd, decide_eq_true_iff]
  have halign : IsAlignment caseSensitive documented declared
      (reconcile caseSensitive documented declared) := by
    refine ⟨matched_reconcile_eq, extra_reconcile_eq, ⟨_, hordered, ?_, ?_⟩, fun d hd v hv h => ?_⟩
    · exact List.forall₂_map_right_iff.2 (List.forall₂_same.2 fun d hd =>
        isReconciled_reconcileValue hnames (hmem hd))
    · exact List.filter_congr fun d hd => hempty (hmem hd)
    · obtain ⟨hd, hnone⟩ := List.mem_filter.1 hd
      obtain ⟨e, he, rfl⟩ := List.mem_map.1 hv
      obtain rfl : e = d := List.inj_on_of_nodup_map hnames (hmem he) (hmem hd) h
      exact (isReconciled_reconcileValue hnames (hmem hd)).entries_eq_nil
        ((isEmpty_documenting_iff hnames (hmem hd)).1 hnone)
  exact ⟨halign, fun r hr => hr.same halign⟩

/-- Two shades that differ in case only, declared in another order than they are numbered. -/
def declaredShades : List DeclaredValue :=
  [⟨"RED", .whole 2⟩, ⟨"Blue", .whole 1⟩, ⟨"Red", .whole 0⟩]

/-- A shade in two variants, documented again in one of them, and one that is not declared. -/
def documentedShades : List DocumentedValue :=
  [{ name := "red", shortDescription := "Warm.", variant := some "objc" }, { name := "Grey" },
    { name := "Red", source := some "red.md" },
    { name := "rEd", shortDescription := "Hot.", variant := some "objc" }]

/-- Without regard to case the shade is the first declared one, and its name alone documents it in
the primary variant. -/
theorem reconcile_isAlignment_shades : ∃ r : Reconciliation,
    IsAlignment false documentedShades declaredShades r ∧
    r.values.map (fun v => (v.name, v.content.entries.map fun e => (e.1, e.2.map (·.text)))) =
      [("Red", []), ("Blue", []), ("RED", [(some "objc", ["Warm."]), (none, [])])] ∧
    r.matched.map (·.name) = ["red", "Red", "rEd"] ∧ r.extra.map (·.name) = ["Grey"] ∧
    r.implicit.map (·.name) = ["Red", "Blue"] := by
  have hordered : declaredShades.mergeSort (fun a b => a.order.le b.order) =
      declaredShades.reverse := by
    simp [declaredShades, List.mergeSort, List.MergeSort.Internal.splitInTwo, Rank.le_whole]
  refine ⟨_, (reconcile_isAlignment (by decide)).1, ?_⟩
  rw [reconcile, hordered]
  decide +kernel

end Reconciliation
end ValueDocs
