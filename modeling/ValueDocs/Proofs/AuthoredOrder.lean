import ValueDocs.Proofs.Alignment

/-!
# Proofs/AuthoredOrder — what the order of documented values decides

Where no value is documented twice in one variant, the order of documented values decides nothing
but the source of each reconciled value, which is that of the first about it.  So the order has no
effect exactly if the values about one name all have one source (`reconcile_perm_iff`).
-/

namespace ValueDocs.Reconciliation

variable {documented documented' : List DocumentedValue} {declared : List DeclaredValue}

/-- When case counts, a name is about the declared value of that name. -/
theorem map_name_ownerOf?_true {name n : String} :
    (ownerOf? true declared name).map (·.name) = some n ↔
      name = n ∧ n ∈ declared.map (·.name) := by
  rw [map_name_ownerOf?]
  simp only [nameKey_true]
  have hname {m : String} (h : (declared.map (·.name)).find? (·.toList == name.toList) = some m) :
      name = m := by
    have := List.find?_some h
    exact (String.toList_inj.1 (beq_iff_eq.1 this)).symm
  constructor
  · exact fun h => ⟨hname h, List.mem_of_find?_eq_some h⟩
  · rintro ⟨rfl, hmem⟩
    have hfound : ((declared.map (·.name)).find? (·.toList == name.toList)).isSome = true :=
      List.find?_isSome.2 ⟨name, hmem, by simp⟩
    obtain ⟨m, hm⟩ := Option.isSome_iff_exists.1 hfound
    rw [hm, hname hm]

/-- When case counts, the values under a declared name are those of that name. -/
theorem documenting_true {d : DeclaredValue} (hd : d ∈ declared) :
    documenting true declared documented d.name = documented.filter (·.name = d.name) := by
  refine List.filter_congr fun v _ => ?_
  rw [Bool.eq_iff_iff, beq_iff_eq, map_name_ownerOf?_true, decide_eq_true_iff]
  exact and_iff_left (List.mem_map_of_mem hd)

/-- Two reconciliations of one declaration are compared value by value. -/
theorem forall₂_values_iff {caseSensitive : Bool} {R : ReconciledValue → ReconciledValue → Prop} :
    List.Forall₂ R (reconcile caseSensitive documented' declared).values
      (reconcile caseSensitive documented declared).values ↔
    ∀ d ∈ declared, R
      (reconcileValue d (documenting caseSensitive declared documented' d.name))
      (reconcileValue d (documenting caseSensitive declared documented d.name)) := by
  change List.Forall₂ R (List.map _ _) (List.map _ _) ↔ _
  rw [List.forall₂_map_left_iff, List.forall₂_map_right_iff, List.forall₂_same]
  exact forall_congr' fun d => imp_congr_left (List.mergeSort_perm _ _).mem_iff

/-- The values of one name have distinct variants, where no value is documented twice in one. -/
theorem nodup_map_variant_filter (h : (documented.map fun v => (v.name, v.variant)).Nodup)
    (name : String) : ((documented.filter (·.name = name)).map (·.variant)).Nodup := by
  have hnodup := (List.pairwise_map.1 h).sublist (List.filter_sublist (p := (·.name = name)))
  refine List.pairwise_map.2 (hnodup.imp_of_mem fun {v w} hv hw hne hvariant => hne ?_)
  have hname {v : DocumentedValue} (hv : v ∈ documented.filter (·.name = name)) :
      v.name = name := by
    simpa using (List.mem_filter.1 hv).2
  rw [hname hv, hname hw, hvariant]

variable {d : DeclaredValue}

/-- The content of a value is the same for any order of the values. -/
theorem same_content_of_perm (h : documented'.Perm documented)
    (hdistinct : (documented.map fun v => (v.name, v.variant)).Nodup) (hd : d ∈ declared) :
    (reconcileValue d (documenting true declared documented' d.name)).content.same
      (reconcileValue d (documenting true declared documented d.name)).content = true := by
  have hperm := h.filter (·.name = d.name)
  have hnodup := nodup_map_variant_filter hdistinct d.name
  refine Variants.same_of_perm ?_ (nodup_tags_reconcileValue d _)
  change ((firstPerVariant _).map _).Perm ((firstPerVariant _).map _)
  rw [documenting_true hd, documenting_true hd, firstPerVariant_eq_self hnodup,
    firstPerVariant_eq_self ((hperm.map _).nodup_iff.2 hnodup)]
  exact hperm.map _

/-- The first of several items that agree is as good as any. -/
theorem head?_bind_eq_of_perm {α β : Type} {f : α → Option β} {xs ys : List α} (h : xs.Perm ys)
    (hf : ∀ x ∈ ys, ∀ y ∈ ys, f x = f y) : xs.head?.bind f = ys.head?.bind f := by
  cases xs with
  | nil => rw [h.nil_eq]
  | cons x xs =>
    cases ys with
    | nil => exact absurd h.eq_nil (List.cons_ne_nil x xs)
    | cons y ys => exact hf x (h.subset (List.mem_cons_self ..)) y (List.mem_cons_self ..)

/-- The source of a value is the same for any order of values that have one source. -/
theorem source_eq_of_perm (h : documented'.Perm documented) (hd : d ∈ declared)
    (hsource : ∀ v ∈ documented, ∀ w ∈ documented, v.name = w.name → v.name = d.name →
      v.source = w.source) :
    (reconcileValue d (documenting true declared documented' d.name)).source =
      (reconcileValue d (documenting true declared documented d.name)).source := by
  rw [source_eq_head?, source_eq_head?, documenting_true hd, documenting_true hd]
  refine head?_bind_eq_of_perm (h.filter _) fun v hv w hw => ?_
  obtain ⟨hv, hvname⟩ : v ∈ documented ∧ v.name = d.name := by simpa using hv
  obtain ⟨hw, hwname⟩ : w ∈ documented ∧ w.name = d.name := by simpa using hw
  exact hsource v hv w hw (hvname.trans hwname.symm) hvname

/-- A value has the source of whichever about it is put first. -/
theorem source_cons {v : DocumentedValue} (hd : d ∈ declared) (hv : v.name = d.name) :
    (reconcileValue d (documenting true declared (v :: documented) d.name)).source = v.source := by
  rw [source_eq_head?, documenting_true hd, List.filter_cons_of_pos (by simpa using hv)]
  rfl

theorem implicit_eq_of_perm (h : documented'.Perm documented) :
    (reconcile true documented' declared).implicit =
      (reconcile true documented declared).implicit := by
  refine List.filter_congr fun d hd => ?_
  have hd : d ∈ declared := (List.mergeSort_perm _ _).subset hd
  have hperm := h.filter (·.name = d.name)
  dsimp only
  rw [documenting_true hd, documenting_true hd, Bool.eq_iff_iff, List.isEmpty_iff,
    List.isEmpty_iff]
  exact ⟨fun hnil => (hnil ▸ hperm).nil_eq.symm, fun hnil => (hnil ▸ hperm).eq_nil⟩

/-- **What of a reconciliation the order of documented values decides.**  Where none is documented
twice in one variant, it decides at most the source of reconciled values, and it decides nothing at
all exactly if the values of each declared name have one source. -/
theorem reconcile_perm_iff (hdistinct : (documented.map fun v => (v.name, v.variant)).Nodup) :
    (∀ documented', documented'.Perm documented →
      (reconcile true documented' declared).implicit =
        (reconcile true documented declared).implicit ∧
      List.Forall₂ (fun v w => v.name = w.name ∧ v.order = w.order ∧
          v.content.same w.content = true)
        (reconcile true documented' declared).values
        (reconcile true documented declared).values) ∧
    ((∀ documented', documented'.Perm documented →
        List.Forall₂ ReconciledValue.Same (reconcile true documented' declared).values
          (reconcile true documented declared).values) ↔
      ∀ v ∈ documented, ∀ w ∈ documented, v.name = w.name → v.name ∈ declared.map (·.name) →
        v.source = w.source) := by
  refine ⟨fun documented' h => ⟨implicit_eq_of_perm h, ?_⟩, fun hsame v hv w hw hname hmem => ?_,
    fun hsource documented' h => ?_⟩
  · exact forall₂_values_iff.2 fun d hd => ⟨rfl, rfl, same_content_of_perm h hdistinct hd⟩
  · obtain ⟨d, hd, hdname⟩ := List.mem_map.1 hmem
    -- putting a value first gives the declared one its source
    have hfirst {u : DocumentedValue} (hu : u ∈ documented) (huname : u.name = d.name) :
        u.source =
          (reconcileValue d (documenting true declared documented d.name)).source := by
      rw [← source_cons hd huname]
      exact (forall₂_values_iff.1 (hsame _ (List.perm_cons_erase hu).symm) d hd).source
    rw [hfirst hv hdname.symm, hfirst hw (hname.symm.trans hdname.symm)]
  · refine forall₂_values_iff.2 fun d hd => ⟨rfl, rfl, same_content_of_perm h hdistinct hd, ?_⟩
    exact source_eq_of_perm h hd fun v hv w hw hname hvd =>
      hsource v hv w hw hname (hvd ▸ List.mem_map_of_mem hd)

/-- A month in a variant of a page. -/
def mayOn (source : String) (variant : Tag) : DocumentedValue where
  name := "May"
  source := some source
  variant := variant

/-- Two variants on one page may come in any order. -/
theorem reconcile_perm_iff_onePage :
    ([mayOn "may.md" none, mayOn "may.md" (some "objc")].map
      fun v => (v.name, v.variant)).Nodup ∧
    ∀ documented', documented'.Perm [mayOn "may.md" none, mayOn "may.md" (some "objc")] →
      List.Forall₂ ReconciledValue.Same (reconcile true documented' [⟨"May", .whole 0⟩]).values
        (reconcile true [mayOn "may.md" none, mayOn "may.md" (some "objc")]
          [⟨"May", .whole 0⟩]).values :=
  ⟨by decide, (reconcile_perm_iff (by decide)).2.2 (by decide)⟩

/-- Of two pages that document one value in different variants, the one that comes first is the
source of the value. -/
theorem not_same_of_perm_twoPages : ∃ documented documented' declared,
    (declared.map (·.name)).Nodup ∧
    (documented.map fun v => (v.name, v.variant)).Nodup ∧ documented'.Perm documented ∧
    ¬ List.Forall₂ ReconciledValue.Same (reconcile true documented' declared).values
      (reconcile true documented declared).values := by
  refine ⟨[mayOn "may.md" none, mayOn "objc.md" (some "objc")],
    [mayOn "objc.md" (some "objc"), mayOn "may.md" none], [⟨"May", .whole 0⟩], by decide, by decide,
    by decide, fun h => ?_⟩
  have hsource := (forall₂_values_iff.1 h _ (List.mem_singleton_self _)).source
  exact absurd hsource (by decide)

end ValueDocs.Reconciliation
