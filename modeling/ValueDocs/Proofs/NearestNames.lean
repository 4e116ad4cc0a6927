import Mathlib.Data.List.Induction
import Mathlib.Data.List.Sort
import Mathlib.Data.String.Basic
import ValueDocs.Diagnostic
import ValueDocs.Proofs.Alignment
import ValueDocs.Proofs.EditScripts

/-!
# Proofs/NearestNames — the name proposed for an undeclared one

The declared values nearest to a name are candidates, and a policy settles ties among them.  What is
proposed is decided by which values are declared, by their names and their numbers, and not by the
order in which they are listed: the conditions on a suggestion mention nothing else
(`IsSuggestion.of_perm`), and one solution alone meets them (`IsSuggestion.unique`).
-/

namespace ValueDocs.Suggestion

section Specification

variable (config : ValuesConfig) (name : String) (declared : List DeclaredValue)

/-- Whether a value is declared and none is nearer to a name. -/
def IsNearest (d : DeclaredValue) : Prop :=
  d ∈ declared ∧ ∀ e ∈ declared,
    keyDistance config.caseSensitive name d.name ≤ keyDistance config.caseSensitive name e.name

/-- The least distance from a name to the declared ones, if any is declared. -/
def IsLeastDistance (n : Nat) : Prop :=
  IsLeast {n | ∃ d ∈ declared, keyDistance config.caseSensitive name d.name = n} n

/-- Whether a value comes first among the nearest, by the policy for ties. -/
structure IsPreferred (d : DeclaredValue) : Prop where
  nearest : IsNearest config name declared d
  declarationOrder : config.suggestion.tieBreak = .declarationOrder →
    ∀ e, IsNearest config name declared e → d.order.value ≤ e.order.value
  alphabetical : config.suggestion.tieBreak = .alphabetical →
    ∀ e, IsNearest config name declared e → d.name ≤ e.name

/-- What the solution for an undeclared name is: a replacement by the preferred one of the nearest
values, provided it is near enough and ties can be settled, or else a request to remove the name
that lists all declared ones in order. -/
structure IsSuggestion (nameRange : Option Range) (s : Solution) : Prop where
  replaces_iff : s.replacement.isSome = true ↔
    ∃ least, IsLeastDistance config name declared least ∧
      least ≤ config.suggestion.maxEditDistance ∧
      ((∃! d, IsNearest config name declared d) ∨
        config.suggestion.tieBreak = .declarationOrder ∨
        config.suggestion.tieBreak = .alphabetical)
  replacement : ∀ r, s.replacement = some r →
    (∃ d, IsPreferred config name declared d ∧ d.name = r) ∧ s.replacementRange = nameRange ∧
      s.summary = "Replace '" ++ name ++ "' with '" ++ r ++ "'"
  request : s.replacement = none → s.replacementRange = none ∧
    ∃ known : List String, known.Perm (declared.map (·.name)) ∧ known.Pairwise (· ≤ ·) ∧
      s.summary = "Remove '" ++ name ++
        "' possible value documentation or replace it with a known value.\n" ++
        "Known Values:\n\n" ++ String.join (known.map fun n => "- " ++ n ++ "\n")

end Specification

variable {config : ValuesConfig} {name : String} {declared declared' : List DeclaredValue}

/-! ## One solution -/

theorem isNearest_congr (h : declared'.Perm declared) :
    IsNearest config name declared' = IsNearest config name declared := by
  funext d
  simp only [IsNearest, h.mem_iff]

theorem isLeastDistance_congr (h : declared'.Perm declared) :
    IsLeastDistance config name declared' = IsLeastDistance config name declared := by
  funext n
  simp only [IsLeastDistance, h.mem_iff]

/-- **The order of declared values does not matter** for what a suggestion is. -/
theorem IsSuggestion.of_perm (h : declared'.Perm declared) {nameRange : Option Range} {s : Solution}
    (hs : IsSuggestion config name declared' nameRange s) :
    IsSuggestion config name declared nameRange s := by
  obtain ⟨hiff, hreplacement, hrequest⟩ := hs
  rw [isNearest_congr h, isLeastDistance_congr h] at hiff
  refine ⟨hiff, fun r hr => ?_, fun hnone => ?_⟩
  · obtain ⟨⟨d, ⟨hnearest, horder, halphabet⟩, hname⟩, hrest⟩ := hreplacement r hr
    rw [isNearest_congr h] at hnearest horder halphabet
    exact ⟨⟨d, ⟨hnearest, horder, halphabet⟩, hname⟩, hrest⟩
  · obtain ⟨hrange, known, hknown, hrest⟩ := hrequest hnone
    exact ⟨hrange, known, hknown.trans (h.map _), hrest⟩

/-- Where ties can be settled, one name is preferred. -/
theorem IsPreferred.name_eq (horders : (declared.map (·.order.value)).Nodup)
    {d e : DeclaredValue} (hd : IsPreferred config name declared d)
    (he : IsPreferred config name declared e)
    (hsettled : (∃! d, IsNearest config name declared d) ∨
      config.suggestion.tieBreak = .declarationOrder ∨
      config.suggestion.tieBreak = .alphabetical) : d.name = e.name := by
  rcases hsettled with hone | hpolicy | hpolicy
  · rw [hone.unique hd.nearest he.nearest]
  · have horder := (hd.declarationOrder hpolicy e he.nearest).antisymm
      (he.declarationOrder hpolicy d hd.nearest)
    rw [List.inj_on_of_nodup_map horders hd.nearest.1 he.nearest.1 horder]
  · exact (hd.alphabetical hpolicy e he.nearest).antisymm (he.alphabetical hpolicy d hd.nearest)

/-- **There is one solution alone for a name.** -/
theorem IsSuggestion.unique (horders : (declared.map (·.order.value)).Nodup)
    {nameRange : Option Range} {s t : Solution}
    (hs : IsSuggestion config name declared nameRange s)
    (ht : IsSuggestion config name declared nameRange t) : s = t := by
  have hiff := hs.replaces_iff.trans ht.replaces_iff.symm
  obtain ⟨summary, replacement, range⟩ := s
  obtain ⟨summary', replacement', range'⟩ := t
  cases replacement with
  | none =>
    obtain rfl : replacement' = none := by simpa using hiff
    obtain ⟨rfl, known, hknown, hsorted, rfl⟩ := hs.request rfl
    obtain ⟨rfl, known', hknown', hsorted', rfl⟩ := ht.request rfl
    obtain rfl : known = known' :=
      (hknown.trans hknown'.symm).eq_of_pairwise' hsorted hsorted'
    rfl
  | some r =>
    obtain ⟨r', rfl⟩ := Option.isSome_iff_exists.1 (hiff.1 rfl)
    obtain ⟨⟨d, hd, rfl⟩, rfl, rfl⟩ := hs.replacement _ rfl
    obtain ⟨⟨e, he, rfl⟩, rfl, rfl⟩ := ht.replacement _ rfl
    obtain ⟨-, -, -, hsettled⟩ := hs.replaces_iff.1 rfl
    dsimp only
    rw [hd.name_eq horders he hsettled]

/-! ## The nearest values -/

theorem isLeastDistance_iff {n : Nat} : IsLeastDistance config name declared n ↔
    (∃ d ∈ declared, keyDistance config.caseSensitive name d.name = n) ∧
      ∀ d ∈ declared, n ≤ keyDistance config.caseSensitive name d.name := by
  simp [IsLeastDistance, IsLeast, lowerBounds]

variable (config name) in
/-- What the search has found among the values it has seen: the least distance, and the values at
that distance. -/
structure HasFound (seen : List DeclaredValue) (n : Nearest DeclaredValue) : Prop where
  least : IsLeastDistance config name seen n.distance
  values : n.values = seen.filter fun d =>
    keyDistance config.caseSensitive name d.name = n.distance

namespace HasFound

variable {seen : List DeclaredValue} {n : Nearest DeclaredValue}

theorem first (d : DeclaredValue) :
    HasFound config name [d] (.add (keyDistance config.caseSensitive name d.name) d none) where
  least := isLeastDistance_iff.2 (by simp [Nearest.add])
  values := by simp [Nearest.add]

/-- **One more value** is nearer than all before, as near as the nearest, or farther. -/
theorem add (h : HasFound config name seen n) (d : DeclaredValue) :
    HasFound config name (seen ++ [d])
      (.add (keyDistance config.caseSensitive name d.name) d (some n)) := by
  obtain ⟨⟨m, hm, hdistance⟩, hle⟩ := isLeastDistance_iff.1 h.least
  have hvalues := h.values
  have hlast := List.mem_append_right seen (List.mem_singleton_self d)
  have hseen := List.mem_append_left [d] hm
  rw [Nearest.add]
  split_ifs with hlt heq
  · refine ⟨isLeastDistance_iff.2 ⟨⟨d, hlast, rfl⟩, ?_⟩, ?_⟩
    · rw [List.forall_mem_append, List.forall_mem_singleton]
      exact ⟨fun e he => hlt.le.trans (hle e he), le_rfl⟩
    · have hnone : seen.filter (fun e => keyDistance config.caseSensitive name e.name =
          keyDistance config.caseSensitive name d.name) = [] := by
        refine List.filter_eq_nil_iff.2 fun e he => ?_
        simpa using (hlt.trans_le (hle e he)).ne'
      rw [List.filter_append, hnone]
      simp
  · refine ⟨isLeastDistance_iff.2 ⟨⟨m, hseen, hdistance⟩, ?_⟩, ?_⟩
    · rw [List.forall_mem_append, List.forall_mem_singleton]
      exact ⟨hle, heq.ge⟩
    · simp [List.filter_append, hvalues, heq]
  · refine ⟨isLeastDistance_iff.2 ⟨⟨m, hseen, hdistance⟩, ?_⟩, ?_⟩
    · rw [List.forall_mem_append, List.forall_mem_singleton]
      exact ⟨hle, not_lt.1 hlt⟩
    · simp [List.filter_append, hvalues, heq]

end HasFound

theorem nearest?_append (caseSensitive : Bool) (seen : List DeclaredValue) (d : DeclaredValue) :
    nearest? caseSensitive name (seen ++ [d]) =
      some (.add (keyDistance caseSensitive name d.name) d (nearest? caseSensitive name seen)) := by
  simp [nearest?, nearestBy]

theorem nearest?_eq_none_iff {caseSensitive : Bool} :
    nearest? caseSensitive name declared = none ↔ declared = [] := by
  induction declared using List.reverseRecOn with
  | nil => simp [nearest?, nearestBy]
  | append_singleton seen d => simp [nearest?_append]

/-- **The whole list is searched.** -/
theorem hasFound_of_nearest? {n : Nearest DeclaredValue}
    (h : nearest? config.caseSensitive name declared = some n) :
    HasFound config name declared n := by
  induction declared using List.reverseRecOn generalizing n with
  | nil => simp [nearest?, nearestBy] at h
  | append_singleton seen d ih =>
    rw [nearest?_append] at h
    obtain rfl := Option.some.inj h
    cases hseen : nearest? config.caseSensitive name seen with
    | none =>
      obtain rfl := nearest?_eq_none_iff.1 hseen
      exact .first d
    | some n => exact (ih hseen).add d

/-- **What is near.**  The values found are the nearest ones, in the order of the list. -/
theorem isLeastDistance_of_nearest? {n : Nearest DeclaredValue}
    (h : nearest? config.caseSensitive name declared = some n) :
    IsLeastDistance config name declared n.distance ∧ n.values.Sublist declared ∧
      ∀ d, d ∈ n.values ↔ IsNearest config name declared d := by
  obtain ⟨hleast, hvalues⟩ := hasFound_of_nearest? h
  obtain ⟨⟨m, hm, hdistance⟩, hle⟩ := isLeastDistance_iff.1 hleast
  refine ⟨hleast, hvalues ▸ List.filter_sublist, fun d => ?_⟩
  rw [hvalues, List.mem_filter, decide_eq_true_iff]
  constructor
  · rintro ⟨hd, heq⟩
    exact ⟨hd, fun e he => heq.le.trans (hle e he)⟩
  · rintro ⟨hd, hdle⟩
    exact ⟨hd, (hdistance ▸ hdle m hm).antisymm (hle d hd)⟩

/-! ## The preferred value -/

section Pick

variable {ds : List DeclaredValue} {d : DeclaredValue}

theorem mem_of_leastBy {precedes : DeclaredValue → DeclaredValue → Bool}
    (h : leastBy precedes ds = some d) : d ∈ ds := by
  induction ds with
  | nil => simp [leastBy] at h
  | cons first ds ih =>
    rw [leastBy] at h
    split at h
    · obtain rfl := Option.some.inj h
      exact List.mem_cons_self ..
    · next e he =>
      split at h
      · obtain rfl := Option.some.inj h
        exact List.mem_cons_of_mem _ (ih he)
      · obtain rfl := Option.some.inj h
        exact List.mem_cons_self ..

theorem leastBy_eq_none_iff {precedes : DeclaredValue → DeclaredValue → Bool} :
    leastBy precedes ds = none ↔ ds = [] := by
  cases ds with
  | nil => simp [leastBy]
  | cons first ds =>
    rw [leastBy]
    split
    · simp
    · split <;> simp

/-- No key is less than that of the value found. -/
theorem le_of_leastBy {κ : Type} [LinearOrder κ] (key : DeclaredValue → κ)
    {precedes : DeclaredValue → DeclaredValue → Bool}
    (hprecedes : ∀ a b, precedes a b = true ↔ key a < key b) (h : leastBy precedes ds = some d) :
    ∀ e ∈ ds, key d ≤ key e := by
  induction ds generalizing d with
  | nil => simp
  | cons first ds ih =>
    rw [leastBy] at h
    rw [List.forall_mem_cons]
    split at h
    · next hnone =>
      obtain rfl := Option.some.inj h
      simp [leastBy_eq_none_iff.1 hnone]
    · next e he =>
      split at h
      · next hlt =>
        obtain rfl := Option.some.inj h
        exact ⟨((hprecedes _ _).1 hlt).le, ih he⟩
      · next hlt =>
        obtain rfl := Option.some.inj h
        have hle : key first ≤ key e := not_lt.1 fun hlt' => hlt ((hprecedes _ _).2 hlt')
        exact ⟨le_rfl, fun x hx => hle.trans (ih he x hx)⟩

theorem mem_of_pick? {tieBreak : TieBreak} (h : pick? tieBreak ds = some d) : d ∈ ds := by
  unfold pick? at h
  split at h
  · obtain rfl := Option.some.inj h
    exact List.mem_singleton_self _
  · split at h
    · simp at h
    · exact mem_of_leastBy h
    · exact mem_of_leastBy h

/-- **What a policy picks comes first** in its order. -/
theorem le_of_pick? {tieBreak : TieBreak} (h : pick? tieBreak ds = some d) :
    (tieBreak = .declarationOrder → ∀ e ∈ ds, d.order.value ≤ e.order.value) ∧
      (tieBreak = .alphabetical → ∀ e ∈ ds, d.name ≤ e.name) := by
  unfold pick? at h
  split at h
  · obtain rfl := Option.some.inj h
    simp
  · split at h
    · simp at h
    · refine ⟨fun _ => ?_, by simp⟩
      exact le_of_leastBy (·.order.value) (fun _ _ => Rank.before_iff) h
    · refine ⟨by simp, fun _ => ?_⟩
      exact le_of_leastBy (·.name) (fun _ _ => decide_eq_true_iff) h

/-- A policy picks a value unless it leaves a tie unsettled. -/
theorem isSome_pick?_iff (tieBreak : TieBreak) (hne : ds ≠ []) :
    (pick? tieBreak ds).isSome = true ↔
      ds.length = 1 ∨ tieBreak = .declarationOrder ∨ tieBreak = .alphabetical := by
  have hleast (precedes : DeclaredValue → DeclaredValue → Bool) :
      (leastBy precedes ds).isSome = true :=
    Option.isSome_iff_ne_none.2 fun hnone => hne (leastBy_eq_none_iff.1 hnone)
  unfold pick?
  split
  · simp
  · next hlong =>
    have hlength : ds.length ≠ 1 := fun h => (List.length_eq_one_iff.1 h).elim hlong
    cases tieBreak <;> simp [hlength, hleast]

end Pick

/-! ## The proposed name -/

/-- A name that is proposed is that of a preferred value. -/
theorem exists_isPreferred_of_bestMatch? {r : String}
    (h : bestMatch? config name declared = some r) :
    ∃ d, IsPreferred config name declared d ∧ d.name = r := by
  obtain ⟨n, hn, h⟩ := Option.bind_eq_some_iff.1 h
  obtain ⟨-, -, hnearest⟩ := isLeastDistance_of_nearest? hn
  split at h
  · simp at h
  · obtain ⟨d, hd, rfl⟩ := Option.map_eq_some_iff.1 h
    obtain ⟨horder, halphabet⟩ := le_of_pick? hd
    exact ⟨d, ⟨(hnearest d).1 (mem_of_pick? hd),
      fun hpolicy e he => horder hpolicy e ((hnearest e).2 he),
      fun hpolicy e he => halphabet hpolicy e ((hnearest e).2 he)⟩, rfl⟩

theorem IsLeastDistance.unique {m n : Nat} (hm : IsLeastDistance config name declared m)
    (hn : IsLeastDistance config name declared n) : m = n :=
  (hm.2 hn.1).antisymm (hn.2 hm.1)

/-- Distinct candidates are one just if one value meets what tells the candidates. -/
theorem length_eq_one_iff_existsUnique {ds : List DeclaredValue} {p : DeclaredValue → Prop}
    (hnodup : ds.Nodup) (hmem : ∀ d, d ∈ ds ↔ p d) : ds.length = 1 ↔ ∃! d, p d := by
  simp only [← hmem]
  constructor
  · intro h
    obtain ⟨d, rfl⟩ := List.length_eq_one_iff.1 h
    exact ⟨d, List.mem_singleton_self d, fun e he => List.mem_singleton.1 he⟩
  · rintro ⟨d, hd, honly⟩
    have hsame := List.perm_ext_iff_of_nodup hnodup (List.nodup_singleton d)
    refine (hsame.2 fun e => ?_).length_eq
    exact ⟨fun he => List.mem_singleton.2 (honly e he), fun he => List.mem_singleton.1 he ▸ hd⟩

/-- **When a name is proposed**: the nearest values are near enough, and they are one or their tie
can be settled. -/
theorem isSome_bestMatch?_iff (config : ValuesConfig) (name : String)
    (hnames : (declared.map (·.name)).Nodup) :
    (bestMatch? config name declared).isSome = true ↔
      ∃ least, IsLeastDistance config name declared least ∧
        least ≤ config.suggestion.maxEditDistance ∧
        ((∃! d, IsNearest config name declared d) ∨
          config.suggestion.tieBreak = .declarationOrder ∨
          config.suggestion.tieBreak = .alphabetical) := by
  cases hn : nearest? config.caseSensitive name declared with
  | none =>
    obtain rfl := nearest?_eq_none_iff.1 hn
    simp [bestMatch?, hn, IsLeastDistance, IsLeast]
  | some n =>
    obtain ⟨hleast, hsublist, hnearest⟩ := isLeastDistance_of_nearest? hn
    obtain ⟨m, hm, hdistance⟩ := hleast.1
    have hne : n.values ≠ [] := by
      refine List.ne_nil_of_mem ((hnearest m).2 ⟨hm, fun e he => ?_⟩)
      exact hdistance ▸ hleast.2 ⟨e, he, rfl⟩
    have hnodup : n.values.Nodup := (List.Nodup.of_map _ hnames).sublist hsublist
    have hpick := isSome_pick?_iff config.suggestion.tieBreak hne
    rw [length_eq_one_iff_existsUnique hnodup hnearest] at hpick
    simp only [bestMatch?, hn, Option.bind_eq_bind, Option.bind_some, gt_iff_lt]
    constructor
    · intro h
      split at h
      · simp at h
      · next hnear => exact ⟨_, hleast, not_lt.1 hnear, hpick.1 (by simpa using h)⟩
    · rintro ⟨least, hleast', hnear, hsettled⟩
      obtain rfl := hleast.unique hleast'
      rw [if_neg (not_lt.2 hnear), Option.isSome_map]
      exact hpick.2 hsettled

/-! ## The solution -/

theorem isSuggestion_solution (config : ValuesConfig) (name : String)
    (hnames : (declared.map (·.name)).Nodup) (nameRange : Option Range) :
    IsSuggestion config name declared nameRange (solution config name nameRange declared) := by
  have hiff := isSome_bestMatch?_iff config name hnames
  unfold solution
  cases hbest : bestMatch? config name declared with
  | none =>
    rw [hbest] at hiff
    have hsorted : IsStableSort id (declared.map (·.name)) (sortedNames declared) :=
      .mergeSort (fun _ _ => decide_eq_true_iff) _
    refine ⟨hiff, by simp, fun _ => ?_⟩
    exact ⟨rfl, sortedNames declared, hsorted.perm, hsorted.ascending, rfl⟩
  | some best =>
    rw [hbest] at hiff
    refine ⟨hiff, fun r hr => ?_, by simp⟩
    obtain rfl := Option.some.inj hr
    exact ⟨exists_isPreferred_of_bestMatch? hbest, rfl, rfl⟩

/-! ## Names that need no suggestion -/

/-- Names are at no distance exactly if they have one key. -/
theorem isLeastDistance_zero_iff : IsLeastDistance config name declared 0 ↔
    ∃ d ∈ declared, nameKey config.caseSensitive d.name = nameKey config.caseSensitive name := by
  have hzero (d : DeclaredValue) : keyDistance config.caseSensitive name d.name = 0 ↔
      nameKey config.caseSensitive d.name = nameKey config.caseSensitive name :=
    EditDistance.distance_eq_zero_iff.trans eq_comm
  simp only [← hzero]
  exact ⟨fun h => h.1, fun h => ⟨h, fun _ _ => Nat.zero_le _⟩⟩

open Reconciliation in
/-- **A value is extra unless its name is at no distance from a declared one.** -/
theorem isLeastDistance_zero_iff_notMem_extra {documented : List DocumentedValue}
    {v : DocumentedValue} (hv : v ∈ documented) : IsLeastDistance config v.name declared 0 ↔
      v ∉ (reconcile config.caseSensitive documented declared).extra := by
  rw [isLeastDistance_zero_iff, extra_reconcile_eq, List.mem_filter, decide_eq_true_iff]
  push Not
  exact ⟨fun h _ => h, fun h => h hv⟩

/-- **Suggestions are exact.**  An undeclared value has one solution, which replaces its name by the
preferred one of the nearest declared names or else lists them all.  Declaring the same values in
another order does not change it.  A value is extra unless its name is at no distance from a
declared one, so a replacement never has the key of the name it replaces. -/
theorem solutions_isSuggestion (config : ValuesConfig) (symbol : String) (v : DocumentedValue)
    (hnames : (declared.map (·.name)).Nodup) (horders : (declared.map (·.order.value)).Nodup) :
    (∃ s, (Diagnostic.unknownValue config declared symbol v).solutions = [s] ∧
      IsSuggestion config v.name declared v.nameRange s ∧
      ∀ t, IsSuggestion config v.name declared v.nameRange t → t = s) ∧
    (∀ declared', declared'.Perm declared →
      (Diagnostic.unknownValue config declared' symbol v).solutions =
        (Diagnostic.unknownValue config declared symbol v).solutions) ∧
    ∀ documented, v ∈ documented →
      (IsLeastDistance config v.name declared 0 ↔
        v ∉ (Reconciliation.reconcile config.caseSensitive documented declared).extra) ∧
      (v ∈ (Reconciliation.reconcile config.caseSensitive documented declared).extra →
        ∀ s ∈ (Diagnostic.unknownValue config declared symbol v).solutions, ∀ r,
          s.replacement = some r →
            nameKey config.caseSensitive r ≠ nameKey config.caseSensitive v.name) := by
  have hspec := isSuggestion_solution config v.name hnames v.nameRange
  refine ⟨⟨_, rfl, hspec, fun t ht => ht.unique horders hspec⟩, fun declared' h => ?_,
    fun documented hv => ⟨isLeastDistance_zero_iff_notMem_extra hv, fun hextra s hs r hr heq => ?_⟩⟩
  · have hnames' : (declared'.map (·.name)).Nodup := (h.map _).nodup_iff.2 hnames
    have hspec' := (isSuggestion_solution config v.name hnames' v.nameRange).of_perm h
    exact congrArg (fun s => [s]) (hspec'.unique horders hspec)
  · obtain rfl := List.mem_singleton.1 hs
    obtain ⟨⟨d, hd, rfl⟩, -⟩ := hspec.replacement r hr
    exact (isLeastDistance_zero_iff_notMem_extra hv).1
      (isLeastDistance_zero_iff.2 ⟨d, hd.nearest.1, heq⟩) hextra

/-- Two spellings of a shade that are equally near to a third, listed in another order than they are
numbered. -/
def spellings : List DeclaredValue := [⟨"grey", .whole 1⟩, ⟨"Blue", .whole 2⟩, ⟨"GRAY", .whole 0⟩]

/-- Without regard to case, ties are settled by the names. -/
def byName : ValuesConfig where
  suggestion := { tieBreak := .alphabetical }
  caseSensitive := false

/-- The spelling with the lesser name is proposed. -/
theorem solutions_isSuggestion_spellings :
    (spellings.map (·.name)).Nodup ∧ (spellings.map (·.order.value)).Nodup ∧
    ∃ s, (Diagnostic.unknownValue byName spellings "Shade" { name := "Groy" }).solutions = [s] ∧
      IsSuggestion byName "Groy" spellings none s ∧ s.replacement = some "GRAY" := by
  have hnames : (spellings.map (·.name)).Nodup := by decide
  have horders : (spellings.map (·.order.value)).Nodup := by decide +kernel
  obtain ⟨⟨s, hs, hspec, -⟩, -⟩ :=
    solutions_isSuggestion byName "Shade" { name := "Groy" } hnames horders
  refine ⟨hnames, horders, s, hs, hspec, ?_⟩
  have hreplacement : (Diagnostic.unknownValue byName spellings "Shade"
      { name := "Groy" }).solutions.map (·.replacement) = [some "GRAY"] := by decide +kernel
  rw [hs] at hreplacement
  exact (List.cons_eq_cons.1 hreplacement).1

end ValueDocs.Suggestion
