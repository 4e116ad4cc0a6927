import Mathlib.Data.List.Nodup
import ValueDocs.Registry

/-!
# Proofs/RegisteredNames — the indexes of a registry stay with its kernels

A registry goes through any operations: kernels are registered, packages are discovered, lookups
discover the built-in kernels, and a reset empties it.  What has been offered to it since the last
reset is a list of kernels, in which a name may stand many times.

The registry holds the first kernel of each name in that list, and each index lists the names of the
kernels it holds, each under the key of its kernel (`Registry.IsIndexed`).  One operation keeps this
(`Registry.IsIndexed.perform`), so it holds after all of them, and the lookups agree on every name
(`Registry.isSettled_after`).
-/

namespace ValueDocs

/-! ## Filing names -/

namespace Index

variable {κ : Type} [DecidableEq κ]

/-- **A name that is filed** comes last under its key, and nowhere else. -/
theorem names_file (index : Index κ) (key other : κ) (name : String) :
    (index.file key name).names other =
      index.names other ++ if other = key then [name] else [] := by
  induction index with
  | nil =>
    by_cases h : other = key
    · simp [file, names, h]
    · simp [file, names, List.lookup_cons, beq_eq_false_iff_ne.2 h, h]
  | cons group rest ih =>
    obtain ⟨k, filed⟩ := group
    rw [names, names] at ih
    rcases eq_or_ne k key with rfl | hk <;> rcases eq_or_ne other k with rfl | h
    · simp [file, names]
    · simp [file, names, List.lookup_cons, beq_eq_false_iff_ne.2 h, h]
    · simp [file, names, hk]
    · simp [file, names, List.lookup_cons, beq_eq_false_iff_ne.2 h, hk, ih]

end Index

namespace Registry

/-! ## Operations -/

/-- What a registry may be asked to do. -/
inductive Operation where
  | register (k : Kernel)
  /-- Discovers the kernels of a package; without one, the package cannot be imported. -/
  | discover (found : Option (List Kernel))
  | reset
  /-- Any lookup: it discovers the built-in kernels, and reads what the registry is then. -/
  | lookup

/-- The registry after an operation. -/
def perform (r : Registry) : Operation → Logged Registry
  | .register k => r.register k
  | .discover (some found) => return (← r.discover found).2
  | .discover none => return r
  | .reset => return {}
  | .lookup => r.ensure

/-- The registry after some operations, empty at first. -/
def after (operations : List Operation) : Registry :=
  (StateT.run (operations.foldlM perform {}) ([] : List Message)).1

/-! ## The specification -/

/-- What has been offered to a registry since its last reset: the kernels, in order, and whether a
discovery was among them. -/
structure Offers where
  kernels : List Kernel := []
  discovered : Bool := false

namespace Offers

/-- The offers with more kernels. -/
def add (o : Offers) (ks : List Kernel) : Offers := { o with kernels := o.kernels ++ ks }

/-- The offers with those of a discovery, unless another came first. -/
def discover (o : Offers) (found : List Kernel) : Offers :=
  if o.discovered then o else { o.add found with discovered := true }

/-- The offers after an operation. -/
def next (o : Offers) : Operation → Offers
  | .register k => o.add [k]
  | .discover (some found) => o.discover found
  | .discover none => o
  | .reset => {}
  | .lookup => o.discover builtIn

end Offers

/-- What has been offered by some operations since the last reset among them. -/
def offers (operations : List Operation) : Offers := operations.foldl Offers.next {}

/-- Whether a kernel is the first of its name in a list. -/
def IsFirst (k : Kernel) (ks : List Kernel) : Prop :=
  ∃ before after, ks = before ++ k :: after ∧ ∀ other ∈ before, other.name ≠ k.name

/-- Whether a registry gives a kernel under its name, and lists the name once among all, once over
all categories and once over all stages, under those of the kernel. -/
structure IsListed (r : Registry) (k : Kernel) : Prop where
  get : r.get k.name = .ok k
  names : r.names.count k.name = 1
  categories : ∀ category,
    (r.namesOfCategory category).count k.name = if category = k.category then 1 else 0
  stages : ∀ stage, (r.namesOfStage stage).count k.name = if stage = k.stage then 1 else 0

/-- Whether a registry gives nothing under a name, and lists it nowhere. -/
structure IsUnlisted (r : Registry) (name : String) : Prop where
  get : r.get name = .error (.unknownKernel name r.names)
  names : name ∉ r.names
  categories : ∀ category, name ∉ r.namesOfCategory category
  stages : ∀ stage, name ∉ r.namesOfStage stage

/-- **What there is to look up after some operations.**  A lookup is an operation, too: what it
answers is read off the registry after the operations that end with it. -/
structure IsSettled (operations : List Operation) : Prop where
  /-- The first kernel that was offered under a name since the last reset is the one, whatever comes
  later but a reset. -/
  listed : ∀ later, Operation.reset ∉ later → ∀ k, IsFirst k (offers operations).kernels →
    (after (operations ++ later)).IsListed k
  /-- A name under which nothing was offered is not known. -/
  unlisted : ∀ name, (∀ k ∈ (offers operations).kernels, k.name ≠ name) →
    (after operations).IsUnlisted name

/-! ## The invariant -/

/-- Whether a registry holds the first kernel of each name that was offered, with indexes that list
the names of the kernels it holds. -/
structure IsIndexed (o : Offers) (r : Registry) : Prop where
  find? : ∀ name, r.find? name = o.kernels.find? (·.name = name)
  nodup : (r.kernels.map (·.name)).Nodup
  categories : ∀ category, r.categories.names category =
    (r.kernels.filter (·.category = category)).map (·.name)
  stages : ∀ stage, r.stages.names stage = (r.kernels.filter (·.stage = stage)).map (·.name)
  discovered : r.discovered = o.discovered

variable {r : Registry} {o : Offers} {ks : List Kernel} {k : Kernel} {log : List Message}
  {operations later : List Operation} {name : String}

theorem isIndexed_empty : IsIndexed {} {} where
  find? := fun _ => rfl
  nodup := List.nodup_nil
  categories := fun _ => rfl
  stages := fun _ => rfl
  discovered := rfl

theorem find?_eq_none_iff : r.find? name = none ↔ name ∉ r.kernels.map (·.name) := by
  simp [find?]

/-- The names under a key, with one more kernel. -/
theorem map_filter_append {κ : Type} [DecidableEq κ] (key : Kernel → κ) (other : κ) :
    ((ks ++ [k]).filter (key · = other)).map (·.name) =
      (ks.filter (key · = other)).map (·.name) ++ if other = key k then [k.name] else [] := by
  by_cases h : key k = other
  · simp [List.filter_append, h]
  · simp [List.filter_append, h, Ne.symm h]

namespace IsIndexed

/-- **A kernel whose name is free** is held, and its name is filed. -/
theorem register_of_free (h : IsIndexed o r) (hfree : r.find? k.name = none) :
    IsIndexed (o.add [k]) (StateT.run (r.register k) log).1 := by
  rw [Registry.register, hfree]
  refine ⟨fun name => ?_, ?_, fun category => ?_, fun stage => ?_, h.discovered⟩
  · have hname := h.find? name
    rw [Registry.find?] at hname
    change (r.kernels ++ [k]).find? _ = (o.kernels ++ [k]).find? _
    rw [List.find?_append, List.find?_append, hname]
  · change ((r.kernels ++ [k]).map _).Nodup
    rw [List.map_append]
    refine h.nodup.append (List.nodup_singleton _) fun name hname hk => ?_
    rw [List.mem_singleton.1 hk] at hname
    exact find?_eq_none_iff.1 hfree hname
  · change (r.categories.file k.category k.name).names category = _
    rw [Index.names_file, h.categories]
    exact (map_filter_append (·.category) category).symm
  · change (r.stages.file k.stage k.name).names stage = _
    rw [Index.names_file, h.stages]
    exact (map_filter_append (·.stage) stage).symm

/-- **A kernel whose name is taken** changes nothing. -/
theorem register_of_taken (h : IsIndexed o r) {existing : Kernel}
    (htaken : r.find? k.name = some existing) :
    IsIndexed (o.add [k]) (StateT.run (r.register k) log).1 := by
  have hsame : (StateT.run (r.register k) log).1 = r := by
    rw [Registry.register, htaken]
    dsimp only
    split <;> rfl
  rw [hsame]
  refine { h with find? := fun name => ?_ }
  change r.find? name = (o.kernels ++ [k]).find? _
  rw [h.find?, List.find?_append]
  cases hname : o.kernels.find? (·.name = name) with
  | some first => rfl
  | none =>
    have hne : k.name ≠ name := by
      rintro rfl
      rw [h.find?, hname] at htaken
      cases htaken
    simp [hne]

/-- **Registering a kernel keeps the indexes.** -/
theorem register (h : IsIndexed o r) (k : Kernel) (log : List Message) :
    IsIndexed (o.add [k]) (StateT.run (r.register k) log).1 := by
  cases hk : r.find? k.name with
  | none => exact h.register_of_free hk
  | some existing => exact h.register_of_taken hk

theorem foldlM_register (h : IsIndexed o r) (found : List Kernel) (log : List Message) :
    IsIndexed (o.add found) (StateT.run (found.foldlM Registry.register r) log).1 := by
  induction found generalizing o r log with
  | nil =>
    have hadd : o.add [] = o := by simp [Offers.add]
    rw [hadd]
    exact h
  | cons k found ih =>
    have hadd : o.add (k :: found) = (o.add [k]).add found := by simp [Offers.add]
    rw [List.foldlM_cons, StateT.run_bind, hadd]
    exact ih (h.register k log) _

/-- **A discovery keeps the indexes**, as the first one or as another. -/
theorem discover (h : IsIndexed o r) (found : List Kernel) (log : List Message) :
    IsIndexed (o.discover found) (StateT.run (r.discover found) log).1.2 := by
  rw [Registry.discover, Offers.discover, ← h.discovered]
  split
  · exact h
  · exact { h.foldlM_register found log with discovered := rfl }

/-- **An operation keeps the indexes.** -/
theorem perform (h : IsIndexed o r) (operation : Operation) (log : List Message) :
    IsIndexed (o.next operation) (StateT.run (r.perform operation) log).1 := by
  cases operation with
  | register k => exact h.register k log
  | discover found =>
    cases found with
    | none => exact h
    | some found => exact h.discover found log
  | reset => exact isIndexed_empty
  | lookup => exact h.discover builtIn log

theorem foldlM_perform (h : IsIndexed o r) (operations : List Operation) (log : List Message) :
    IsIndexed (operations.foldl Offers.next o)
      (StateT.run (operations.foldlM Registry.perform r) log).1 := by
  induction operations generalizing o r log with
  | nil => exact h
  | cons operation operations ih =>
    rw [List.foldlM_cons, StateT.run_bind, List.foldl_cons]
    exact ih (h.perform operation log) _

/-! ## Lookups -/

/-- An index of the kernels of distinct names has each name once, under the key of its kernel. -/
theorem count_map_filter {κ : Type} [DecidableEq κ] (h : IsIndexed o r) (hk : k ∈ r.kernels)
    (key : Kernel → κ) (other : κ) :
    ((r.kernels.filter (key · = other)).map (·.name)).count k.name =
      if other = key k then 1 else 0 := by
  have hsub : ((r.kernels.filter (key · = other)).map (·.name)).Sublist (r.kernels.map (·.name)) :=
    List.filter_sublist.map _
  rw [(h.nodup.sublist hsub).count]
  refine if_congr ?_ rfl rfl
  rw [List.mem_map]
  constructor
  · rintro ⟨l, hl, hname⟩
    obtain ⟨hl, hkey⟩ := List.mem_filter.1 hl
    obtain rfl := List.inj_on_of_nodup_map h.nodup hl hk hname
    exact (of_decide_eq_true hkey).symm
  · rintro rfl
    exact ⟨k, List.mem_filter.2 ⟨hk, decide_eq_true rfl⟩, rfl⟩

/-- **The first kernel of a name is listed.** -/
theorem isListed (h : IsIndexed o r) (hk : IsFirst k o.kernels) : r.IsListed k := by
  obtain ⟨before, after, hkernels, hbefore⟩ := hk
  have hfind : r.find? k.name = some k := by
    rw [h.find?, List.find?_eq_some_iff_append]
    exact ⟨decide_eq_true rfl, before, after, hkernels, fun l hl => by simp [hbefore l hl]⟩
  have hmem : k ∈ r.kernels := List.mem_of_find?_eq_some hfind
  refine ⟨by rw [Registry.get, hfind], ?_, fun category => ?_, fun stage => ?_⟩
  · rw [names, (List.mergeSort_perm ..).count_eq]
    exact List.count_eq_one_of_mem h.nodup (List.mem_map.2 ⟨k, hmem, rfl⟩)
  · rw [namesOfCategory, (List.mergeSort_perm ..).count_eq, h.categories]
    exact h.count_map_filter hmem (·.category) category
  · rw [namesOfStage, (List.mergeSort_perm ..).count_eq, h.stages]
    exact h.count_map_filter hmem (·.stage) stage

/-- **A name under which nothing was offered is not listed.** -/
theorem isUnlisted (h : IsIndexed o r) (hname : ∀ k ∈ o.kernels, k.name ≠ name) :
    r.IsUnlisted name := by
  have hnone : r.find? name = none := by
    rw [h.find?, List.find?_eq_none]
    exact fun k hk => by simp [hname k hk]
  have hnames := find?_eq_none_iff.1 hnone
  have hfiltered (p : Kernel → Bool) : name ∉ (r.kernels.filter p).map (·.name) :=
    fun h => hnames ((List.filter_sublist.map _).subset h)
  refine ⟨by rw [Registry.get, hnone], ?_, fun category => ?_, fun stage => ?_⟩
  · rwa [names, List.mem_mergeSort]
  · rw [namesOfCategory, List.mem_mergeSort, h.categories]
    exact hfiltered _
  · rw [namesOfStage, List.mem_mergeSort, h.stages]
    exact hfiltered _

end IsIndexed

/-! ## After all operations -/

theorem IsFirst.of_prefix (h : IsFirst k ks) {more : List Kernel} (hmore : ks <+: more) :
    IsFirst k more := by
  obtain ⟨before, after, rfl, hbefore⟩ := h
  obtain ⟨rest, rfl⟩ := hmore
  exact ⟨before, after ++ rest, by simp, hbefore⟩

/-- An operation other than a reset only adds to what was offered. -/
theorem Offers.prefix_next {operation : Operation} (h : operation ≠ .reset) :
    o.kernels <+: (o.next operation).kernels := by
  have hdiscover (found : List Kernel) : o.kernels <+: (o.discover found).kernels := by
    rw [discover]
    split
    · exact List.prefix_refl _
    · exact List.prefix_append ..
  cases operation with
  | register k => exact List.prefix_append ..
  | discover found =>
    cases found with
    | none => exact List.prefix_refl _
    | some found => exact hdiscover found
  | reset => exact absurd rfl h
  | lookup => exact hdiscover builtIn

theorem prefix_offers_append (h : Operation.reset ∉ later) :
    (offers operations).kernels <+: (offers (operations ++ later)).kernels := by
  rw [offers, offers, List.foldl_append]
  generalize operations.foldl Offers.next {} = o
  induction later generalizing o with
  | nil => exact List.prefix_refl _
  | cons operation later ih =>
    obtain ⟨hne, hlater⟩ := List.ne_and_not_mem_of_not_mem_cons h
    exact (Offers.prefix_next hne.symm).trans (ih hlater _)

/-- The indexes stay with the kernels through all operations. -/
theorem isIndexed_after (operations : List Operation) :
    IsIndexed (offers operations) (after operations) :=
  isIndexed_empty.foldlM_perform operations []

/-- **The indexes of a registry are consistent after any operations.** -/
theorem isSettled_after (operations : List Operation) : IsSettled operations where
  listed := fun later hlater _ hk =>
    (isIndexed_after (operations ++ later)).isListed (hk.of_prefix (prefix_offers_append hlater))
  unlisted := fun _ hname => (isIndexed_after operations).isUnlisted hname

/-- A kernel of a name that a built-in kernel has, too. -/
def lateDirectives : Kernel where
  name := "pv_directives"
  category := "late"
  compute := fun _ => return ⟨.null, ""⟩

example : (after [.lookup, .register lateDirectives]).namesOfCategory "late" = [] := by
  decide +kernel

example : (after [.register lateDirectives, .lookup]).namesOfCategory "late" =
    ["pv_directives"] := by
  decide +kernel

end Registry
end ValueDocs
