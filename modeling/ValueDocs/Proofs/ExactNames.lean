import Mathlib.Data.List.TakeWhile
import ValueDocs.Proofs.Alignment

/-!
# Proofs/ExactNames — documented under a declared name, and about another value

Where case does not count, several declared values may have one key, and what is documented under
any of their names is about the first of them.  So a value that is documented under its exact name
is matched, but it is implicit all the same if one declared earlier has its key
(`reconcile_exactName_iff`).
-/

namespace ValueDocs

/-- The first item with a property is preceded by none that has it. -/
theorem isFirst_iff_takeWhile {α : Type} [DecidableEq α] {p : α → Prop} {xs : List α} {x : α}
    (hx : x ∈ xs) : IsFirst p xs x ↔ p x ∧ ∀ y ∈ xs.takeWhile (· ≠ x), ¬ p y := by
  have htake {before after : List α} (h : x ∉ before) :
      (before ++ x :: after).takeWhile (· ≠ x) = before := by
    rw [List.takeWhile_append_of_pos fun y hy => decide_eq_true (ne_of_mem_of_not_mem hy h)]
    simp
  constructor
  · rintro ⟨before, after, rfl, hp, hbefore⟩
    rw [htake fun h => hbefore x h hp]
    exact ⟨hp, hbefore⟩
  · rintro ⟨hp, hnone⟩
    obtain ⟨before, after, rfl, hbefore⟩ := List.eq_append_cons_of_mem hx
    exact ⟨before, after, rfl, hp, htake hbefore ▸ hnone⟩

/-- The only item with a property is the first. -/
theorem isFirst_of_forall_eq {α : Type} [DecidableEq α] {p : α → Prop} {xs : List α} {x : α}
    (hx : x ∈ xs) (hp : p x) (honly : ∀ y ∈ xs, p y → y = x) : IsFirst p xs x := by
  refine (isFirst_iff_takeWhile hx).2 ⟨hp, fun y hy hpy => ?_⟩
  have hne : y ≠ x := by simpa using List.mem_takeWhile_imp hy
  exact hne (honly y ((List.takeWhile_prefix _).subset hy) hpy)

namespace Reconciliation

variable {documented : List DocumentedValue} {declared : List DeclaredValue} {d : DeclaredValue}

/-- Whether a value declared earlier has the key of a declared value when case does not count. -/
def IsShadowed (declared : List DeclaredValue) (d : DeclaredValue) : Prop :=
  ∃ e ∈ declared.takeWhile (· ≠ d), nameKey false e.name = nameKey false d.name

instance : Decidable (IsShadowed declared d) := inferInstanceAs (Decidable (∃ e ∈ _, _))

/-- **A name is about the value whose key it has unless that is shadowed.** -/
theorem isOwner_iff_not_isShadowed (hd : d ∈ declared) {name : String} :
    IsOwner false declared name d ↔
      nameKey false d.name = nameKey false name ∧ ¬ IsShadowed declared d := by
  rw [IsOwner, isFirst_iff_takeWhile hd]
  refine and_congr_right fun hkey => ?_
  rw [← hkey, IsShadowed]
  push Not
  rfl

theorem IsOwner.unique {caseSensitive : Bool} {name : String} {e : DeclaredValue}
    (hd : IsOwner caseSensitive declared name d) (he : IsOwner caseSensitive declared name e) :
    e = d :=
  Option.some.inj ((ownerOf?_eq_some_iff.2 he).symm.trans (ownerOf?_eq_some_iff.2 hd))

/-- What is matched by exact names is matched when case does not count. -/
theorem matched_true_sublist_matched_false : (reconcile true documented declared).matched.Sublist
    (reconcile false documented declared).matched := by
  rw [matched_reconcile_eq, matched_reconcile_eq]
  refine List.monotone_filter_right _ fun v hv => ?_
  obtain ⟨d, hd, hkey⟩ := of_decide_eq_true hv
  refine decide_eq_true ⟨d, hd, ?_⟩
  rw [String.toList_inj.1 hkey]

/-- A declared value is implicit if nothing documented is about it. -/
theorem mem_implicit_iff {caseSensitive : Bool} (hnames : (declared.map (·.name)).Nodup)
    (hd : d ∈ declared) : d ∈ (reconcile caseSensitive documented declared).implicit ↔
      IsUndocumented caseSensitive documented declared d := by
  change d ∈ List.filter _ _ ↔ _
  rw [List.mem_filter, (List.mergeSort_perm _ _).mem_iff, isEmpty_documenting_iff hnames hd]
  exact and_iff_right hd

/-- The only value of its variant about a declared one is its content. -/
theorem exists_content_of_forall_eq {caseSensitive : Bool}
    (hnames : (declared.map (·.name)).Nodup) {v : DocumentedValue} (hv : v ∈ documented)
    (howner : IsOwner caseSensitive declared v.name d)
    (honly : ∀ w ∈ documented, IsOwner caseSensitive declared w.name d ∧ w.variant = v.variant →
      w = v) :
    ∃ r ∈ (reconcile caseSensitive documented declared).values, r.name = d.name ∧
      r.content.get? v.variant = some v.contentBlocks := by
  have hreconciled : IsReconciled caseSensitive documented declared d
      (reconcileValue d (documenting caseSensitive declared documented d.name)) :=
    isReconciled_reconcileValue hnames howner.mem
  refine ⟨_, ?_, hreconciled.name, (hreconciled.content _ _).2 ⟨v, ?_, rfl⟩⟩
  · exact List.mem_map_of_mem ((List.mergeSort_perm _ _).mem_iff.2 howner.mem)
  · exact isFirst_of_forall_eq hv ⟨howner, rfl⟩ honly

/-- **When a value documented under its exact name is given what is documented.**  Matching without
regard to case matches all that exact names match.  A value under an exact name is about it, and
about no other, if and only if none declared earlier has its key; then it is not implicit, and it has
the content of the documented value where no other of its variant has the key.  Otherwise it is
implicit. -/
theorem reconcile_exactName_iff (hnames : (declared.map (·.name)).Nodup) (hd : d ∈ declared)
    {v : DocumentedValue} (hv : v ∈ documented) (hname : v.name = d.name) :
    (reconcile true documented declared).matched.Sublist
        (reconcile false documented declared).matched ∧
    v ∈ (reconcile false documented declared).matched ∧
    ((∀ e, IsOwner false declared v.name e ↔ e = d) ↔ ¬ IsShadowed declared d) ∧
    (d ∈ (reconcile false documented declared).implicit ↔ IsShadowed declared d) ∧
    (¬ IsShadowed declared d →
      (∀ w ∈ documented, w.variant = v.variant → nameKey false w.name = nameKey false d.name →
        w = v) →
      ∃ r ∈ (reconcile false documented declared).values, r.name = d.name ∧
        r.content.get? v.variant = some v.contentBlocks) := by
  have howner : IsOwner false declared v.name d ↔ ¬ IsShadowed declared d := by
    rw [hname, isOwner_iff_not_isShadowed hd]
    exact and_iff_right rfl
  refine ⟨matched_true_sublist_matched_false, ?_, ⟨fun h => ?_, fun h e => ?_⟩, ?_,
    fun h honly => ?_⟩
  · rw [matched_reconcile_eq, List.mem_filter]
    exact ⟨hv, decide_eq_true ⟨d, hd, by rw [hname]⟩⟩
  · exact howner.1 ((h d).2 rfl)
  · exact ⟨(howner.2 h).unique, fun he => he ▸ howner.2 h⟩
  · rw [mem_implicit_iff hnames hd]
    constructor
    · exact fun hnone => by_contra fun h => hnone v hv (howner.2 h)
    · exact fun h w hw how => ((isOwner_iff_not_isShadowed hd).1 how).2 h
  · refine exists_content_of_forall_eq hnames hv (howner.2 h) fun w hw hboth => ?_
    exact honly w hw hboth.2 ((isOwner_iff_not_isShadowed hd).1 hboth.1).1.symm

/-- Two names with one case folding. -/
def declaredStreets : List DeclaredValue := [⟨"Straße", .whole 0⟩, ⟨"STRASSE", .whole 1⟩]

/-- The first of them is documented under its exact name, and in another variant under a third. -/
def documentedStreets : List DocumentedValue :=
  [{ name := "strasse", variant := some "objc" },
    { name := "Straße", shortDescription := "With a sharp s." }]

/-- The value declared first is given what is documented under its exact name. -/
theorem reconcile_exactName_iff_streets :
    (declaredStreets.map (·.name)).Nodup ∧ ¬ IsShadowed declaredStreets ⟨"Straße", .whole 0⟩ ∧
    ∃ r ∈ (reconcile false documentedStreets declaredStreets).values, r.name = "Straße" ∧
      (r.content.get? none).map (·.map (·.text)) = some ["With a sharp s."] := by
  have hnames : (declaredStreets.map (·.name)).Nodup := by decide
  have hd : ⟨"Straße", .whole 0⟩ ∈ declaredStreets := by decide
  have hv : { name := "Straße", shortDescription := "With a sharp s." } ∈ documentedStreets := by
    decide
  have hunshadowed : ¬ IsShadowed declaredStreets ⟨"Straße", .whole 0⟩ := by decide +kernel
  obtain ⟨-, -, -, -, hcontent⟩ := reconcile_exactName_iff hnames hd hv rfl
  obtain ⟨r, hr, hname, hget⟩ := hcontent hunshadowed (by decide +kernel)
  exact ⟨hnames, hunshadowed, r, hr, hname, by rw [hget]; rfl⟩

/-- Two names that differ in case only. -/
def declaredReds : List DeclaredValue := [⟨"Red", .whole 0⟩, ⟨"RED", .whole 1⟩]

/-- The second of them, documented under its exact name. -/
def documentedRed : DocumentedValue where
  name := "RED"
  shortDescription := "Warm."

/-- What is documented under the exact name of a value declared later is the content of the first,
and the value itself is implicit. -/
theorem not_isOwner_of_exactName : ∃ (documented : List DocumentedValue)
    (declared : List DeclaredValue) (v : DocumentedValue) (d : DeclaredValue),
    (declared.map (·.name)).Nodup ∧ v ∈ documented ∧ d ∈ declared ∧ v.name = d.name ∧
    (∀ w ∈ documented, w.variant = v.variant → nameKey false w.name = nameKey false d.name →
      w = v) ∧
    ¬ IsOwner false declared v.name d ∧
    d ∈ (reconcile false documented declared).implicit ∧
    ∃ r ∈ (reconcile false documented declared).values, r.name ≠ d.name ∧
      r.content.get? v.variant = some v.contentBlocks := by
  have hnames : (declaredReds.map (·.name)).Nodup := by decide
  refine ⟨[documentedRed], declaredReds, documentedRed, ⟨"RED", .whole 1⟩, hnames, by decide,
    by decide, rfl, by decide +kernel, by decide +kernel, ?_, ?_⟩
  · exact (mem_implicit_iff hnames (by decide)).2 (by decide +kernel)
  · have howner : IsOwner false declaredReds documentedRed.name ⟨"Red", .whole 0⟩ := by
      decide +kernel
    obtain ⟨r, hr, hname, hget⟩ := exists_content_of_forall_eq hnames
      (List.mem_singleton_self documentedRed) howner (by simp)
    exact ⟨r, hr, by rw [hname]; decide, hget⟩

end Reconciliation
end ValueDocs
