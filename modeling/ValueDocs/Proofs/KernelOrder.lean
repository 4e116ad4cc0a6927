import ValueDocs.Proofs.KernelSchedules
import ValueDocs.Proofs.StableSort

/-!
# Proofs/KernelOrder — kernels are put in their canonical order

The kernels that are put in order carry how many of those they require are still to come.  While
the order grows, each carries the number that it requires beyond what is done (`Pending.since`), and
so a queue holds the names that are ready (`IsRun`).  A step takes the least name of the queue and
adds those it releases (`IsRun.step`), which makes the order a schedule; there are steps enough to
empty the queue (`schedule_spec`).  So kernels are put in the canonical order, or those are reported
that are on a circle of requirements or reach one (`arrange_spec`), and the outcome for some names
is one of three (`isResolution_resolve`).

The main theorem `resolve_isTopological` reads off when which outcome arises, and that it depends on
nothing but which names are asked for and what the registered kernels require.
-/

open Relation

namespace ValueDocs.Registry

open Metadata

/-! ## What a kernel lacks -/

namespace Pending

/-- The kernel with the number of those that it requires beyond what is done. -/
def since (done : List String) (k : Pending) : Pending :=
  { k with lacking := (k.requires.filter (· ∉ done)).length }

variable {done : List String} {name : String} {k : Pending}

@[simp] theorem since_name : (k.since done).name = k.name := rfl

@[simp] theorem since_requires : (k.since done).requires = k.requires := rfl

theorem since_nil (h : k.lacking = k.requires.length) : k.since [] = k := by
  cases k
  simp_all [since]

theorem since_lacking_eq_zero_iff :
    (k.since done).lacking = 0 ↔ ∀ d ∈ k.requires, d ∈ done := by
  simp [since]

/-- **Once a name is put in order, each kernel that requires it lacks one less.** -/
theorem after_since (hk : k.requires.Nodup) (hname : name ∉ done) :
    (k.since done).after name = k.since (done ++ [name]) := by
  have hfilter : k.requires.filter (· ∉ done ++ [name]) =
      (k.requires.filter (· ∉ done)).erase name := by
    rw [(hk.filter _).erase_eq_filter, List.filter_filter]
    exact List.filter_congr fun d _ => by rw [Bool.eq_iff_iff]; simp [and_comm]
  by_cases hmem : name ∈ k.requires
  · have hlacks : name ∈ k.requires.filter (· ∉ done) := by simp [hmem, hname]
    have hlength := List.length_pos_of_mem hlacks
    rw [after, since_requires, if_pos (List.contains_iff_mem.2 hmem), since, since, hfilter,
      List.length_erase_of_mem hlacks, Int.natCast_pred_of_pos hlength]
  · have hlacks : name ∉ k.requires.filter (· ∉ done) := fun h => hmem (List.mem_of_mem_filter h)
    rw [after, since_requires, if_neg (mt List.contains_iff_mem.1 hmem), since, since, hfilter,
      List.erase_of_not_mem hlacks]

theorem isReleased_since (hk : k.requires.Nodup) (hname : name ∉ done) :
    (k.since done).isReleased name = true ↔
      name ∈ k.requires ∧ ∀ d ∈ k.requires, d ∈ done ++ [name] := by
  rw [isReleased, after_since hk hname, Bool.and_eq_true, decide_eq_true_iff,
    since_lacking_eq_zero_iff, since_requires, List.contains_iff_mem]

end Pending

/-! ## The kernels to put in order -/

/-- A kernel carries what is required under its name, and lacks all of it. -/
structure IsUntouched (r : Registry) (k : Pending) : Prop where
  nodup : k.requires.Nodup
  mem_iff : ∀ d, d ∈ k.requires ↔ r.Requires k.name d
  lacking : k.lacking = k.requires.length

/-- These are the kernels that some names need, each once. -/
structure ArePending (r : Registry) (names : List String) (ks : List Pending) : Prop where
  nodup : (ks.map (·.name)).Nodup
  mem_iff : ∀ n, n ∈ ks.map (·.name) ↔ r.IsNeeded names n
  untouched : ∀ k ∈ ks, r.IsUntouched k

variable {r : Registry} {names all listing queue done order : List String} {ks : List Pending}
  {n name : String}

theorem exists_pending (h : (r.find? n).isSome) :
    ∃ k, r.pending n = .ok k ∧ k.name = n ∧ r.IsUntouched k := by
  obtain ⟨k, hk⟩ := Option.isSome_iff_exists.1 h
  refine ⟨⟨n, distinct k.requires, (distinct k.requires).length⟩, ?_, rfl, ?_⟩
  · rw [pending, get_eq_ok hk]
    rfl
  · exact ⟨nodup_distinct _, fun d => mem_distinct.trans (requires_iff hk).symm, rfl⟩

/-- **A listing of what is needed gives the kernels** to put in order. -/
theorem exists_arePending (hnodup : listing.Nodup) (hmem : ∀ n, n ∈ listing ↔ r.IsNeeded names n)
    (hsome : ∀ n ∈ listing, (r.find? n).isSome) :
    ∃ ks, listing.mapM r.pending = .ok ks ∧ r.ArePending names ks := by
  suffices h : ∃ ks, listing.mapM r.pending = .ok ks ∧ ks.map (·.name) = listing ∧
      ∀ k ∈ ks, r.IsUntouched k by
    obtain ⟨ks, hks, rfl, huntouched⟩ := h
    exact ⟨ks, hks, hnodup, hmem, huntouched⟩
  clear hnodup hmem
  induction listing with
  | nil => exact ⟨[], rfl, rfl, by simp⟩
  | cons n listing ih =>
    obtain ⟨hn, hrest⟩ := List.forall_mem_cons.1 hsome
    obtain ⟨k, hk, rfl, huntouched⟩ := exists_pending hn
    obtain ⟨ks, hks, rfl, hall⟩ := ih hrest
    refine ⟨k :: ks, ?_, rfl, List.forall_mem_cons.2 ⟨huntouched, hall⟩⟩
    rw [List.mapM_cons, hk, hks]
    rfl

namespace ArePending

theorem isReady_iff (h : r.ArePending names ks) {k : Pending} (hk : k ∈ ks) :
    r.IsReady names done k.name ↔ k.name ∉ done ∧ ∀ d ∈ k.requires, d ∈ done := by
  have hneeded : r.IsNeeded names k.name := (h.mem_iff _).1 (List.mem_map_of_mem hk)
  simp only [IsReady, hneeded, true_and, (h.untouched k hk).mem_iff]

/-- The names that a name releases are those that waited for it alone. -/
theorem mem_released_iff (h : r.ArePending names ks) (hname : name ∉ done) :
    n ∈ ((ks.map (·.since done)).filter (·.isReleased name)).map (·.name) ↔
      r.IsNeeded names n ∧ r.Requires n name ∧ ∀ d, r.Requires n d → d ∈ done ++ [name] := by
  have hwaits {k : Pending} (hk : k ∈ ks) : (k.since done).isReleased name = true ↔
      r.Requires k.name name ∧ ∀ d, r.Requires k.name d → d ∈ done ++ [name] := by
    rw [Pending.isReleased_since (h.untouched k hk).nodup hname]
    simp only [(h.untouched k hk).mem_iff]
  simp only [List.filter_map, List.map_map, List.mem_map, List.mem_filter, Function.comp_apply,
    Pending.since_name]
  constructor
  · rintro ⟨k, ⟨hk, hreleased⟩, rfl⟩
    exact ⟨(h.mem_iff _).1 (List.mem_map_of_mem hk), (hwaits hk).1 hreleased⟩
  · rintro ⟨hneeded, hall⟩
    obtain ⟨k, hk, rfl⟩ := List.mem_map.1 ((h.mem_iff n).2 hneeded)
    exact ⟨k, ⟨hk, (hwaits hk).2 hall⟩, rfl⟩

theorem nodup_released (h : r.ArePending names ks) (done : List String) (name : String) :
    (((ks.map (·.since done)).filter (·.isReleased name)).map (·.name)).Nodup := by
  refine h.nodup.sublist ?_
  rw [List.filter_map, List.map_map]
  exact List.filter_sublist.map _

/-- A schedule is no longer than the kernels are many. -/
theorem length_le (h : r.ArePending names ks) (horder : r.IsSchedule names order) :
    order.length ≤ ks.length := by
  have hsub : order ⊆ ks.map (·.name) := fun n hn => (h.mem_iff n).2 (horder.isNeeded hn)
  simpa using (horder.nodup.subperm hsub).length_le

/-- A schedule is as long as the kernels are many exactly if it leaves none of them out. -/
theorem length_eq_iff (h : r.ArePending names ks) (horder : r.IsSchedule names order) :
    order.length = ks.length ↔ ∀ n, r.IsNeeded names n → n ∈ order := by
  have hsub : order ⊆ ks.map (·.name) := fun n hn => (h.mem_iff n).2 (horder.isNeeded hn)
  constructor
  · intro hlength n hn
    have hperm := (horder.nodup.subperm hsub).perm_of_length_le (by simp [hlength])
    exact hperm.mem_iff.2 ((h.mem_iff n).2 hn)
  · intro hall
    have hsub' : ks.map (·.name) ⊆ order := fun n hn => hall n ((h.mem_iff n).1 hn)
    exact (h.length_le horder).antisymm (by simpa using (h.nodup.subperm hsub').length_le)

end ArePending

/-! ## The order grows -/

variable (r names) in
/-- What putting kernels in order has come to: the done names are a schedule, and a queue holds
those that are ready. -/
structure IsRun (queue done : List String) : Prop where
  schedule : r.IsSchedule names done
  nodup : queue.Nodup
  mem_iff : ∀ n, n ∈ queue ↔ r.IsReady names done n

namespace IsRun

theorem initial (h : r.ArePending names ks) :
    r.IsRun names ((ks.filter (·.lacking = 0)).map (·.name)) [] where
  schedule := isSchedule_nil
  nodup := h.nodup.sublist (List.filter_sublist.map _)
  mem_iff := by
    have hlacking {k : Pending} (hk : k ∈ ks) : k.lacking = 0 ↔ ∀ d ∈ k.requires, d ∈ [] := by
      rw [← Pending.since_lacking_eq_zero_iff, Pending.since_nil (h.untouched k hk).lacking]
    intro n
    simp only [List.mem_map, List.mem_filter, decide_eq_true_iff]
    constructor
    · rintro ⟨k, ⟨hk, hzero⟩, rfl⟩
      exact (h.isReady_iff hk).2 ⟨List.not_mem_nil, (hlacking hk).1 hzero⟩
    · intro hready
      obtain ⟨k, hk, rfl⟩ := List.mem_map.1 ((h.mem_iff n).2 hready.1)
      exact ⟨k, ⟨hk, (hlacking hk).2 ((h.isReady_iff hk).1 hready).2⟩, rfl⟩

/-- The head of the sorted queue is the name that is next. -/
theorem isNext (h : r.IsRun names queue done) {rest : List String}
    (hsort : queue.mergeSort = name :: rest) : r.IsNext names done name := by
  have hqueue : IsStableSort id queue (name :: rest) :=
    hsort ▸ .mergeSort (fun _ _ => decide_eq_true_iff) _
  refine ⟨(h.mem_iff name).1 (hqueue.perm.mem_iff.1 List.mem_cons_self), fun m hm => ?_⟩
  rcases List.mem_cons.1 (hqueue.perm.mem_iff.2 ((h.mem_iff m).2 hm)) with rfl | hm
  · exact le_rfl
  · exact (List.pairwise_cons.1 hqueue.ascending).1 m hm

/-- What is left of the sorted queue are the names that are ready besides the next one. -/
theorem mem_rest_iff (h : r.IsRun names queue done) {rest : List String}
    (hsort : queue.mergeSort = name :: rest) :
    n ∈ rest ↔ r.IsReady names done n ∧ n ≠ name := by
  have hperm : (name :: rest).Perm queue := hsort ▸ List.mergeSort_perm _ _
  have hname : name ∉ rest := (List.nodup_cons.1 (hperm.nodup_iff.2 h.nodup)).1
  rw [← h.mem_iff, ← hperm.mem_iff, List.mem_cons]
  constructor
  · exact fun hn => ⟨.inr hn, fun heq => hname (heq ▸ hn)⟩
  · exact fun hn => hn.1.resolve_left hn.2

/-- **A step puts the least name of the queue in order**, and queues those it releases. -/
theorem step (h : r.IsRun names queue done) (hks : r.ArePending names ks) {rest : List String}
    (hsort : queue.mergeSort = name :: rest) :
    r.IsRun names
      (rest ++ ((ks.map (·.since done)).filter (·.isReleased name)).map (·.name))
      (done ++ [name]) := by
  have hnext := h.isNext hsort
  have hname : name ∉ done := hnext.1.2.1
  have hrest : rest.Nodup := by
    have hperm : (name :: rest).Perm queue := hsort ▸ List.mergeSort_perm _ _
    exact (hperm.nodup_iff.2 h.nodup).of_cons
  refine ⟨h.schedule.append hnext, hrest.append (hks.nodup_released done name) ?_, fun m => ?_⟩
  · -- what requires the name was not ready before
    intro m hm hreleased
    have hready : r.IsReady names done m := ((h.mem_rest_iff hsort).1 hm).1
    exact hname (hready.2.2 name ((hks.mem_released_iff hname).1 hreleased).2.1)
  · rw [List.mem_append, h.mem_rest_iff hsort, hks.mem_released_iff hname,
      h.schedule.isReady_append_iff hnext.1]

end IsRun

/-- **A run with steps enough** is a schedule after which nothing is ready. -/
theorem schedule_spec (hks : r.ArePending names ks) (steps : Nat) (h : r.IsRun names queue done)
    (hsteps : ks.length ≤ done.length + steps) :
    r.IsSchedule names (schedule steps (ks.map (·.since done)) queue done) ∧
      r.IsFinal names (schedule steps (ks.map (·.since done)) queue done) := by
  induction steps generalizing queue done with
  | zero =>
    refine ⟨h.schedule, fun n hn => ?_⟩
    have hlength := (hks.length_le h.schedule).antisymm hsteps
    exact hn.2.1 ((hks.length_eq_iff h.schedule).1 hlength n hn.1)
  | succ steps ih =>
    rw [schedule]
    split
    · next hsort =>
      have hqueue : queue = [] := by
        have hperm := List.mergeSort_perm queue fun a b => decide (a ≤ b)
        rw [hsort] at hperm
        exact hperm.nil_eq.symm
      exact ⟨h.schedule, fun n hn => by simpa [hqueue] using (h.mem_iff n).2 hn⟩
    · next name rest hsort =>
      have hafter : (ks.map (·.since done)).map (·.after name) =
          ks.map (·.since (done ++ [name])) := by
        rw [List.map_map]
        refine List.map_congr_left fun k hk => ?_
        exact Pending.after_since (hks.untouched k hk).nodup (h.isNext hsort).1.2.1
      rw [hafter]
      refine ih (h.step hks hsort) ?_
      rw [List.length_append, List.length_singleton]
      omega

/-! ## Kernels are put in order, or a circle is reported -/

section Outcomes

variable (r : Registry) (names : List String)

/-- The names to report are those of the needed ones that are circular, sorted. -/
structure IsReport (ns : List String) : Prop where
  ascending : ns.Pairwise (· < ·)
  mem_iff : ∀ n, n ∈ ns ↔ r.IsNeeded names n ∧ r.IsCircular n

/-- What putting some names in order may come to. -/
inductive IsResolution : Outcome (List String) → Prop
  | missing {n : String} (hn : r.IsMissing names n) :
    IsResolution (.error (.unknownKernel n r.names))
  | circular {ns : List String} (hall : ¬ ∃ n, r.IsMissing names n) (hcircle : r.HasCircle names)
    (hns : r.IsReport names ns) : IsResolution (.error (.circular ns))
  | ordered {order : List String} (hall : ¬ ∃ n, r.IsMissing names n)
    (hcircle : ¬ r.HasCircle names) (horder : r.IsOrder names order) : IsResolution (.ok order)

end Outcomes

/-- Names that are distinct are sorted strictly. -/
theorem pairwise_lt_mergeSort {ns : List String} (h : ns.Nodup) :
    ns.mergeSort.Pairwise (· < ·) := by
  have hsorted : IsStableSort id ns ns.mergeSort := .mergeSort (fun _ _ => decide_eq_true_iff) ns
  have hnodup := hsorted.perm.nodup_iff.2 h
  exact (hsorted.ascending.and hnodup).imp fun ⟨hle, hne⟩ => lt_of_le_of_ne hle hne

/-- **Kernels are put in order** unless some requirements make a circle. -/
theorem arrange_spec (hks : r.ArePending names ks) :
    (∃ ns, arrange ks = .error (.circular ns) ∧ r.HasCircle names ∧ r.IsReport names ns) ∨
      ∃ order, arrange ks = .ok order ∧ ¬ r.HasCircle names ∧ r.IsOrder names order := by
  have hstart : ks.map (·.since []) = ks :=
    (List.map_congr_left fun k hk => Pending.since_nil (hks.untouched k hk).lacking).trans
      (List.map_id _)
  obtain ⟨horder, hfinal⟩ := schedule_spec hks ks.length (.initial hks) (by simp)
  rw [hstart] at horder hfinal
  have hlength := hks.length_eq_iff horder
  rw [arrange]
  split
  · next h =>
    have hall := hlength.1 h
    exact .inr ⟨_, rfl, (horder.forall_mem_iff hfinal).1 hall, horder.nodup,
      fun n => ⟨horder.isNeeded, hall n⟩, horder⟩
  · next h =>
    have hcircle := not_not.1 (mt (horder.forall_mem_iff hfinal).2 (mt hlength.2 h))
    refine .inl ⟨_, rfl, hcircle, pairwise_lt_mergeSort (hks.nodup.filter _), fun n => ?_⟩
    rw [(List.mergeSort_perm _ _).mem_iff, List.mem_filter, hks.mem_iff]
    refine and_congr_right fun hn => ?_
    rw [← horder.notMem_iff hfinal hn]
    simp

/-- A kernel that only reaches a circle is reported with it, and one beside it is not. -/
example : arrange [⟨"c", ["b"], 1⟩, ⟨"b", ["a"], 1⟩, ⟨"a", ["b"], 1⟩, ⟨"d", [], 0⟩] =
    .error (.circular ["a", "b", "c"]) := by
  cbv

theorem not_exists_isMissing (hall : r.closure names = .ok all) : ¬ ∃ n, r.IsMissing names n := by
  obtain ⟨-, hmem, hsome⟩ := closure_eq_ok hall
  rintro ⟨n, hn, hnone⟩
  simpa [hnone] using hsome n ((hmem n).2 hn)

/-- **The closure may be listed in any order.** -/
theorem isResolution_of_perm (hall : r.closure names = .ok all) (hperm : listing.Perm all) :
    r.IsResolution names (do arrange (← listing.mapM r.pending)) := by
  obtain ⟨hnodup, hmem, hsome⟩ := closure_eq_ok hall
  obtain ⟨ks, hks, hpending⟩ := exists_arePending (hperm.nodup_iff.2 hnodup)
    (fun n => hperm.mem_iff.trans (hmem n)) fun n hn => hsome n (hperm.mem_iff.1 hn)
  rw [hks]
  change r.IsResolution names (arrange ks)
  rcases arrange_spec hpending with ⟨ns, h, hcircle, hns⟩ | ⟨order, h, hcircle, horder⟩
  · exact h ▸ .circular (not_exists_isMissing hall) hcircle hns
  · exact h ▸ .ordered (not_exists_isMissing hall) hcircle horder

/-- **The outcome for some names.** -/
theorem isResolution_resolve (r : Registry) (names : List String) :
    r.IsResolution names (r.resolve names) := by
  rcases closure_spec r names with ⟨all, hall, -, -, -⟩ | ⟨n, hn, herror⟩
  · rw [resolve, hall]
    exact isResolution_of_perm hall (.refl all)
  · rw [resolve, herror]
    exact .missing hn

/-! ## What the outcome depends on -/

/-- The same names are asked for and registered, and the kernels require the same. -/
structure AreAlike (r r' : Registry) (names names' : List String) : Prop where
  names : ∀ n, n ∈ names ↔ n ∈ names'
  registered : ∀ n, (r.find? n).isSome = (r'.find? n).isSome
  requires : ∀ n d, r.Requires n d ↔ r'.Requires n d

namespace AreAlike

variable {r' : Registry} {names' : List String} {x y : Outcome (List String)}

theorem refl : AreAlike r r names names := ⟨fun _ => .rfl, fun _ => rfl, fun _ _ => .rfl⟩

theorem requires_eq (h : AreAlike r r' names names') : r.Requires = r'.Requires :=
  funext₂ fun n d => propext (h.requires n d)

theorem isNeeded_eq (h : AreAlike r r' names names') : r.IsNeeded names = r'.IsNeeded names' :=
  funext fun n => by simp only [IsNeeded, h.names, h.requires_eq]

theorem isMissing_iff (h : AreAlike r r' names names') :
    r.IsMissing names n ↔ r'.IsMissing names' n := by
  rw [IsMissing, IsMissing, h.isNeeded_eq, ← Option.isNone_iff_eq_none, ← Option.isNone_iff_eq_none,
    ← Option.not_isSome, ← Option.not_isSome, h.registered]

theorem isSchedule_iff (h : AreAlike r r' names names') :
    r.IsSchedule names order ↔ r'.IsSchedule names' order := by
  simp only [IsSchedule, IsNext, IsReady, h.isNeeded_eq, h.requires_eq]

theorem isFinal_iff (h : AreAlike r r' names names') :
    r.IsFinal names order ↔ r'.IsFinal names' order := by
  simp only [IsFinal, IsReady, h.isNeeded_eq, h.requires_eq]

theorem hasCircle_iff (h : AreAlike r r' names names') :
    r.HasCircle names ↔ r'.HasCircle names' := by
  simp only [HasCircle, h.isNeeded_eq, h.requires_eq]

/-- **With nothing missing there is one outcome.** -/
theorem eq_of_isResolution (h : AreAlike r r' names names') (hx : r.IsResolution names x)
    (hy : r'.IsResolution names' y) (hall : ¬ ∃ n, r.IsMissing names n) : x = y := by
  cases hx with
  | missing hn => exact absurd ⟨_, hn⟩ hall
  | circular _ hcircle hns =>
    cases hy with
    | missing hn => exact absurd ⟨_, h.isMissing_iff.2 hn⟩ hall
    | circular _ _ hns' =>
      refine congrArg (Except.error ∘ Failure.circular) ?_
      refine hns.ascending.eq_of_mem_iff hns'.ascending fun n => ?_
      rw [hns.mem_iff, hns'.mem_iff, h.isNeeded_eq, IsCircular, IsCircular, h.requires_eq]
    | ordered _ hcircle' => exact absurd (h.hasCircle_iff.1 hcircle) hcircle'
  | ordered _ hcircle horder =>
    cases hy with
    | missing hn => exact absurd ⟨_, h.isMissing_iff.2 hn⟩ hall
    | circular _ hcircle' => exact absurd (h.hasCircle_iff.2 hcircle') hcircle
    | ordered _ _ horder' =>
      refine congrArg Except.ok ?_
      exact (h.isSchedule_iff.1 horder.schedule).eq_of_isFinal (h.isFinal_iff.1 horder.isFinal)
        horder'.schedule horder'.isFinal

end AreAlike

/-- A result fails for a cause of some kind. -/
def FailsWith (x : Outcome (List String)) (kind : FailureKind) : Prop :=
  ∃ e, x = .error e ∧ e.kind = kind

namespace IsResolution

variable {x : Outcome (List String)}

theorem failsWith_missingKey_iff (h : r.IsResolution names x) :
    FailsWith x .missingKey ↔ ∃ n, r.IsMissing names n := by
  cases h with
  | missing hn => exact iff_of_true ⟨_, rfl, rfl⟩ ⟨_, hn⟩
  | circular hall => exact iff_of_false (by rintro ⟨_, ⟨⟩, ⟨⟩⟩) hall
  | ordered hall => exact iff_of_false (by rintro ⟨_, ⟨⟩, _⟩) hall

theorem failsWith_badValue_iff (h : r.IsResolution names x) :
    FailsWith x .badValue ↔ (¬ ∃ n, r.IsMissing names n) ∧ r.HasCircle names := by
  cases h with
  | missing hn => exact iff_of_false (by rintro ⟨_, ⟨⟩, ⟨⟩⟩) fun h => h.1 ⟨_, hn⟩
  | circular hall hcircle => exact iff_of_true ⟨_, rfl, rfl⟩ ⟨hall, hcircle⟩
  | ordered _ hcircle => exact iff_of_false (by rintro ⟨_, ⟨⟩, _⟩) fun h => hcircle h.2

theorem exists_eq_ok_iff (h : r.IsResolution names x) :
    (∃ order, x = .ok order) ↔ (¬ ∃ n, r.IsMissing names n) ∧ ¬ r.HasCircle names := by
  cases h with
  | missing hn => exact iff_of_false nofun fun h => h.1 ⟨_, hn⟩
  | circular _ hcircle => exact iff_of_false nofun fun h => h.2 hcircle
  | ordered hall hcircle => exact iff_of_true ⟨_, rfl⟩ ⟨hall, hcircle⟩

end IsResolution

/-- **Resolving dependencies is a canonical topological sort.**  For any kernels and any names:

* it fails for a missing key exactly if a needed name is not registered, and tells such a name with
  the registered ones;
* else it fails for a bad value exactly if requirements of needed names make a circle, and reports
  the needed names that are on a circle or reach one, sorted;
* else it puts the needed names in order, each once and at each place the least of those that are
  not put yet though all they require is.

The closure may be listed in any order.  Unless a name is missing, the outcome depends only on which
names are asked for, which are registered and what these require; whether one is missing depends on
nothing else either, though which missing name is told is the first that the search meets. -/
theorem resolve_isTopological (r : Registry) (names : List String) :
    (FailsWith (r.resolve names) .missingKey ↔ ∃ n, r.IsMissing names n) ∧
    (∀ e, r.resolve names = .error e → e.kind = .missingKey →
      ∃ n, r.IsMissing names n ∧ e = .unknownKernel n r.names) ∧
    (FailsWith (r.resolve names) .badValue ↔
      (¬ ∃ n, r.IsMissing names n) ∧ ∃ n, r.IsNeeded names n ∧ TransGen r.Requires n n) ∧
    (∀ e, r.resolve names = .error e → e.kind = .badValue →
      ∃ ns, e = .circular ns ∧ ns.Pairwise (· < ·) ∧
        ∀ n, n ∈ ns ↔ r.IsNeeded names n ∧
          ∃ c, ReflTransGen r.Requires n c ∧ TransGen r.Requires c c) ∧
    ((∃ order, r.resolve names = .ok order) ↔
      (¬ ∃ n, r.IsMissing names n) ∧ ¬ ∃ n, r.IsNeeded names n ∧ TransGen r.Requires n n) ∧
    (∀ order, r.resolve names = .ok order → r.IsOrder names order) ∧
    (∀ all listing : List String, r.closure names = .ok all → listing.Perm all →
      (do arrange (← listing.mapM r.pending)) = r.resolve names) ∧
    ∀ r' names', AreAlike r r' names names' →
      (FailsWith (r.resolve names) .missingKey ↔ FailsWith (r'.resolve names') .missingKey) ∧
      (¬ FailsWith (r.resolve names) .missingKey → r.resolve names = r'.resolve names') := by
  have h := isResolution_resolve r names
  refine ⟨h.failsWith_missingKey_iff, ?_, h.failsWith_badValue_iff, ?_, h.exists_eq_ok_iff, ?_, ?_,
    fun r' names' halike => ⟨?_, ?_⟩⟩
  · intro e he hkind
    rw [he] at h
    cases h with
    | missing hn => exact ⟨_, hn, rfl⟩
    | circular => cases hkind
  · intro e he hkind
    rw [he] at h
    cases h with
    | missing => cases hkind
    | circular _ _ hns => exact ⟨_, rfl, hns.ascending, hns.mem_iff⟩
  · intro order horder
    rw [horder] at h
    cases h with
    | ordered _ _ horder => exact horder
  · intro all listing hall hperm
    exact AreAlike.refl.eq_of_isResolution (isResolution_of_perm hall hperm) h
      (not_exists_isMissing hall)
  · rw [h.failsWith_missingKey_iff, (isResolution_resolve r' names').failsWith_missingKey_iff]
    exact exists_congr fun _ => halike.isMissing_iff
  · intro hpresent
    rw [h.failsWith_missingKey_iff] at hpresent
    exact halike.eq_of_isResolution h (isResolution_resolve r' names') hpresent

end ValueDocs.Registry
