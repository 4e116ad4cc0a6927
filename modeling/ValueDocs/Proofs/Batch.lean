import Mathlib.Data.List.Count
import Mathlib.Logic.Relation
import ValueDocs.Pass
import ValueDocs.Proofs.DiagnosticOrder
import ValueDocs.Proofs.Outcome

/-!
# Proofs/Batch — passes that run side by side

A pool runs the passes of a batch at the same time.  Each pass hands its diagnostics to the one
engine, one after another, and the diagnostics of different passes may come between each other in
any way.

A run of the pool is known by its schedule, which says in turn which pass emitted what.  The
schedules of complete runs are the interleavings of the diagnostics of the passes
(`Pool.Follows.isOf`, `Pool.exists_reaches_of_isOf`).  So the results are those of one pass after
another, but the sorted diagnostics are the same for every schedule only if diagnostics of different
passes at one place are always equal (`runAll_independent_iff`).
-/

namespace ValueDocs

/-! ## The pool -/

/-- A pass in a pool. -/
inductive Job where
  | waiting (input : PassInput)
  /-- Its result is known; some of its diagnostics are still to be emitted. -/
  | emitting (result : PassResult) (left : List Diagnostic)
  | failed (failure : Failure)

namespace Job

/-- What a pass does next, and what it emits by this. -/
inductive Step : Job → Option Diagnostic → Job → Prop
  | start {input : PassInput} {r : PassResult} (h : Pass.run input = .ok r) :
    Step (waiting input) none (emitting r r.diagnostics)
  | fail {input : PassInput} {e : Failure} (h : Pass.run input = .error e) :
    Step (waiting input) none (failed e)
  | emit (r : PassResult) (d : Diagnostic) (ds : List Diagnostic) :
    Step (emitting r (d :: ds)) (some d) (emitting r ds)

/-- What a pass that is over gives back. -/
def outcome? : Job → Option (Outcome PassResult)
  | emitting r [] => some (.ok r)
  | failed e => some (.error e)
  | _ => none

/-- What a batch gives back: the results in order, or the first failure. -/
def outcomes? : List Job → Option (Outcome (List PassResult))
  | [] => some (.ok [])
  | job :: jobs =>
    match job.outcome? with
    | none => none
    | some (.error e) => some (.error e)
    | some (.ok r) => (outcomes? jobs).map fun o => o.map (r :: ·)

/-- Whether this is the pass over an input, after it emitted the diagnostics `said`. -/
def HasSaid (input : PassInput) (said : List Diagnostic) : Job → Prop
  | waiting i => i = input ∧ said = []
  | emitting r left => Pass.run input = .ok r ∧ said ++ left = r.diagnostics
  | failed e => Pass.run input = .error e ∧ said = []

end Job

/-- The passes of a batch, and the engine that they share. -/
structure Pool where
  engine : Engine
  jobs : List Job

namespace Pool

/-- One of the passes goes on. -/
inductive Step (p : Pool) : Pool → Prop
  | job {k : Nat} {job job' : Job} {said : Option Diagnostic} (hk : p.jobs[k]? = some job)
    (h : job.Step said job') : Step p ⟨said.elim p.engine p.engine.emit, p.jobs.set k job'⟩

/-- The passes go on, one or another, any number of times. -/
abbrev Reaches : Pool → Pool → Prop := Relation.ReflTransGen Step

/-- The pool of a batch. -/
def start (inputs : List PassInput) (engine : Engine) : Pool := ⟨engine, inputs.map .waiting⟩

end Pool

/-! ## Schedules -/

/-- Which pass emitted what, in turn. -/
abbrev Schedule := List (Nat × Diagnostic)

namespace Schedule

/-- What the pass with an index emits. -/
def of (k : Nat) (t : Schedule) : List Diagnostic :=
  t.filterMap fun x => if x.1 = k then some x.2 else none

@[simp] theorem of_nil (k : Nat) : of k [] = [] := rfl

@[simp] theorem of_append (k : Nat) (t u : Schedule) : of k (t ++ u) = of k t ++ of k u :=
  List.filterMap_append

theorem of_cons_self (k : Nat) (d : Diagnostic) (t : Schedule) :
    of k ((k, d) :: t) = d :: of k t := by
  simp [of]

theorem of_cons_of_ne {j k : Nat} (h : j ≠ k) (d : Diagnostic) (t : Schedule) :
    of k ((j, d) :: t) = of k t := by
  simp [of, h]

/-- One pass emits diagnostics in a row. -/
def row (k : Nat) (ds : List Diagnostic) : Schedule := ds.map (k, ·)

@[simp] theorem of_row_self (k : Nat) (ds : List Diagnostic) : of k (row k ds) = ds := by
  simp [of, row, List.filterMap_map]

theorem of_row_of_ne {j k : Nat} (h : j ≠ k) (ds : List Diagnostic) : of k (row j ds) = [] := by
  simp [of, row, h]

@[simp] theorem map_snd_row (k : Nat) (ds : List Diagnostic) : (row k ds).map (·.2) = ds := by
  simp [row]

theorem of_filter (k : Nat) (t : Schedule) (p : Nat × Diagnostic → Bool) :
    of k (t.filter p) = (of k t).filter fun d => p (k, d) := by
  induction t with
  | nil => rfl
  | cons x t ih =>
    obtain ⟨j, d⟩ := x
    by_cases hj : j = k
    · subst hj
      by_cases hp : p (j, d) <;> simp [hp, of_cons_self, ih]
    · by_cases hp : p (j, d) <;> simp [hp, of_cons_of_ne hj, ih]

theorem count_of (k : Nat) (d : Diagnostic) (t : Schedule) :
    (of k t).count d = t.count (k, d) := by
  induction t with
  | nil => rfl
  | cons x t ih =>
    obtain ⟨j, e⟩ := x
    by_cases hj : j = k
    · subst hj
      rw [of_cons_self, List.count_cons, List.count_cons, ih]
      simp
    · rw [of_cons_of_ne hj, ih, List.count_cons_of_ne (by simp [hj])]

/-- Schedules in which each pass emits the same differ in the order only. -/
theorem perm_of_forall_of_eq {t u : Schedule} (h : ∀ k, of k t = of k u) : t.Perm u :=
  List.perm_iff_count.2 fun ⟨k, d⟩ => by rw [← count_of, ← count_of, h]

/-- If only one pass emits anything, what is emitted is what it emits. -/
theorem of_eq_map_snd {k : Nat} {t : Schedule} (h : ∀ x ∈ t, x.1 = k) :
    of k t = t.map (·.2) := by
  induction t with
  | nil => rfl
  | cons x t ih =>
    obtain ⟨j, d⟩ := x
    obtain rfl : j = k := h _ (List.mem_cons_self ..)
    rw [of_cons_self, ih fun y hy => h y (List.mem_cons_of_mem _ hy)]
    rfl

/-- **Passes that emit the same need no order between them.**  If diagnostics of different passes are
always equal, then what is emitted does not depend on the schedule. -/
theorem map_snd_eq_of_agree {t u : Schedule} (h : ∀ k, of k t = of k u)
    (hagree : ∀ x ∈ t, ∀ y ∈ t, x.1 ≠ y.1 → x.2 = y.2) : t.map (·.2) = u.map (·.2) := by
  have hperm := perm_of_forall_of_eq h
  by_cases hone : ∀ x ∈ t, ∀ y ∈ t, x.1 = y.1
  · -- one pass emits all
    cases t with
    | nil => rw [hperm.nil_eq]
    | cons x t =>
      have ht : ∀ y ∈ x :: t, y.1 = x.1 := fun y hy => hone y hy x (List.mem_cons_self ..)
      rw [← of_eq_map_snd ht, h, of_eq_map_snd fun y hy => ht y (hperm.mem_iff.2 hy)]
  · -- two passes emit the same diagnostic, and every other pass differs from one of the two
    push Not at hone
    obtain ⟨x, hx, y, hy, hne⟩ := hone
    have hall : ∀ z ∈ t, z.2 = x.2 := fun z hz => by
      by_cases hzx : z.1 = x.1
      · rw [hagree z hz y hy (hzx ▸ hne), hagree x hx y hy hne]
      · exact hagree z hz x hx hzx
    have hreplicate {v : Schedule} (hv : ∀ z ∈ v, z.2 = x.2) :
        v.map (·.2) = List.replicate v.length x.2 :=
      List.eq_replicate_iff.2 ⟨List.length_map _, fun d hd => by
        obtain ⟨z, hz, rfl⟩ := List.mem_map.1 hd
        exact hv z hz⟩
    rw [hreplicate hall, hreplicate fun z hz => hall z (hperm.mem_iff.2 hz), hperm.length_eq]

/-- Whether each pass emits all its diagnostics in their order. -/
def IsOf (results : List PassResult) (t : Schedule) : Prop :=
  ∀ k, of k t = (results[k]?.map (·.diagnostics)).getD []

theorem IsOf.exists_mem {results : List PassResult} {t : Schedule} (h : IsOf results t)
    {x : Nat × Diagnostic} (hx : x ∈ t) :
    ∃ hk : x.1 < results.length, x.2 ∈ results[x.1].diagnostics := by
  have hmem : x.2 ∈ of x.1 t := List.mem_filterMap.2 ⟨x, hx, if_pos rfl⟩
  rw [h x.1] at hmem
  by_cases hk : x.1 < results.length
  · rw [List.getElem?_eq_getElem hk] at hmem
    exact ⟨hk, hmem⟩
  · rw [List.getElem?_eq_none (Nat.le_of_not_lt hk)] at hmem
    exact absurd hmem List.not_mem_nil

/-- The passes emit one after another. -/
def inTurn (results : List PassResult) : Schedule :=
  results.zipIdx.flatMap fun x => row x.2 x.1.diagnostics

theorem map_snd_inTurn (results : List PassResult) :
    (inTurn results).map (·.2) = results.flatMap (·.diagnostics) := by
  rw [inTurn, List.map_flatMap]
  simp only [map_snd_row]
  rw [← List.flatMap_map (fun x : PassResult × Nat => x.1) (fun r => r.diagnostics),
    List.zipIdx_map_fst]

theorem isOf_inTurn (results : List PassResult) : IsOf results (inTurn results) := by
  -- from any index on, what the passes before it emit stays out
  have hfrom (n k : Nat) : of k ((results.zipIdx n).flatMap fun x => row x.2 x.1.diagnostics) =
      if n ≤ k then (results[k - n]?.map (·.diagnostics)).getD [] else [] := by
    induction results generalizing n with
    | nil => simp
    | cons r rs ih =>
      rw [List.zipIdx_cons, List.flatMap_cons, of_append, ih (n + 1)]
      rcases Nat.lt_trichotomy n k with hlt | rfl | hgt
      · obtain ⟨m, rfl⟩ := Nat.exists_eq_add_of_lt hlt
        rw [of_row_of_ne hlt.ne, if_pos (by omega), if_pos hlt.le, List.nil_append,
          show n + m + 1 - (n + 1) = m by omega, show n + m + 1 - n = m + 1 by omega,
          List.getElem?_cons_succ]
      · rw [of_row_self, if_neg (by omega), if_pos le_rfl, Nat.sub_self, List.getElem?_cons_zero]
        simp
      · rw [of_row_of_ne hgt.ne', if_neg (by omega), if_neg (by omega), List.append_nil]
  intro k
  simpa [inTurn] using hfrom 0 k

end Schedule

/-! ## Runs -/

namespace Pool

/-- Whether this is the pool of a batch after the passes emitted what the schedule says. -/
structure Follows (inputs : List PassInput) (engine : Engine) (t : Schedule) (p : Pool) :
    Prop where
  problems : p.engine.problems = engine.problems ++ t.map (·.2)
  length : p.jobs.length = inputs.length
  lt_length : ∀ x ∈ t, x.1 < inputs.length
  jobs : ∀ (k : Nat) (input : PassInput) (job : Job), inputs[k]? = some input →
    p.jobs[k]? = some job → job.HasSaid input (t.of k)

end Pool

/-- What one step of a pass does to what it said. -/
theorem Job.HasSaid.step {input : PassInput} {ds : List Diagnostic} {job job' : Job}
    {said : Option Diagnostic} (h : job.HasSaid input ds) (hstep : job.Step said job') :
    job'.HasSaid input (ds ++ said.toList) := by
  cases hstep with
  | start hrun =>
    obtain ⟨rfl, rfl⟩ := h
    exact ⟨hrun, rfl⟩
  | fail hrun =>
    obtain ⟨rfl, rfl⟩ := h
    exact ⟨hrun, rfl⟩
  | emit r d left =>
    obtain ⟨hrun, hsaid⟩ := h
    exact ⟨hrun, by rw [← hsaid, Option.toList_some, List.append_assoc, List.singleton_append]⟩

namespace Pool

variable {inputs : List PassInput} {engine : Engine}

theorem follows_start : Follows inputs engine [] (start inputs engine) where
  problems := by simp [start]
  length := by simp [start]
  lt_length := by simp
  jobs := fun k input job hinput hjob => by
    rw [start, List.getElem?_map, hinput] at hjob
    obtain rfl := Option.some.inj hjob
    exact ⟨rfl, rfl⟩

/-- A step of the pool adds to the schedule what is emitted by it. -/
theorem Follows.step {t : Schedule} {p q : Pool} (h : Follows inputs engine t p) (hstep : Step p q) :
    ∃ t', Follows inputs engine t' q := by
  obtain @⟨k, job, job', said, hk, hjob⟩ := hstep
  obtain ⟨hlt, -⟩ := List.getElem?_eq_some_iff.1 hk
  refine ⟨t ++ Schedule.row k said.toList, ?_, ?_, ?_, ?_⟩
  · cases said with
    | none => simpa using h.problems
    | some d => simp [Engine.emit, h.problems]
  · rw [List.length_set, h.length]
  · intro x hx
    rcases List.mem_append.1 hx with hx | hx
    · exact h.lt_length x hx
    · obtain ⟨d, -, rfl⟩ := List.mem_map.1 hx
      exact h.length ▸ hlt
  · intro j input job'' hinput hjob''
    rw [Schedule.of_append]
    by_cases hj : k = j
    · subst hj
      rw [List.getElem?_set_self hlt] at hjob''
      obtain rfl := Option.some.inj hjob''
      rw [Schedule.of_row_self]
      exact (h.jobs k input job hinput hk).step hjob
    · rw [List.getElem?_set_ne hj] at hjob''
      rw [Schedule.of_row_of_ne hj, List.append_nil]
      exact h.jobs j input job'' hinput hjob''

/-- **Every run has a schedule.** -/
theorem exists_follows {p : Pool} (h : (start inputs engine).Reaches p) :
    ∃ t, Follows inputs engine t p := by
  induction h with
  | refl => exact ⟨[], follows_start⟩
  | tail _ hstep ih =>
    obtain ⟨t, ht⟩ := ih
    exact ht.step hstep

end Pool

namespace Job

/-- A batch gives back the results when each of its passes has its result and nothing to emit. -/
theorem eq_map_of_outcomes? {jobs : List Job} {results : List PassResult}
    (h : outcomes? jobs = some (.ok results)) : jobs = results.map fun r => emitting r [] := by
  induction jobs generalizing results with
  | nil =>
    obtain rfl : [] = results := Except.ok.inj (Option.some.inj h)
    rfl
  | cons job jobs ih =>
    rw [outcomes?] at h
    split at h
    · cases h
    · cases h
    · next r hjob =>
      obtain ⟨o, ho, hmap⟩ := Option.map_eq_some_iff.1 h
      cases o with
      | error e => cases hmap
      | ok rs =>
        obtain rfl : r :: rs = results := Except.ok.inj hmap
        rw [ih ho, List.map_cons]
        congr 1
        cases job with
        | waiting input => cases hjob
        | failed e => cases hjob
        | emitting r' left =>
          cases left with
          | nil =>
            obtain rfl : r' = r := Except.ok.inj (Option.some.inj hjob)
            rfl
          | cons d ds => cases hjob

theorem outcomes?_map_emitting (results : List PassResult) :
    outcomes? (results.map fun r => emitting r []) = some (.ok results) := by
  induction results with
  | nil => rfl
  | cons r rs ih => rw [List.map_cons, outcomes?, ih]; rfl

theorem HasSaid.run_eq {input : PassInput} {said : List Diagnostic} {job : Job}
    {o : Outcome PassResult} (h : job.HasSaid input said) (ho : job.outcome? = some o) :
    Pass.run input = o := by
  cases job with
  | waiting i => cases ho
  | failed e => exact h.1.trans (Option.some.inj ho)
  | emitting r left =>
    cases left with
    | nil => exact h.1.trans (Option.some.inj ho)
    | cons d ds => cases ho

/-- What a batch gives back is what its passes yield in order. -/
theorem mapM_run_of_outcomes? {inputs : List PassInput} {jobs : List Job}
    {o : Outcome (List PassResult)}
    (h : List.Forall₂ (fun input job => ∃ said, HasSaid input said job) inputs jobs)
    (ho : outcomes? jobs = some o) : inputs.mapM Pass.run = o := by
  induction h generalizing o with
  | nil => exact Option.some.inj ho
  | @cons input job inputs jobs hjob _ ih =>
    obtain ⟨said, hsaid⟩ := hjob
    rw [outcomes?] at ho
    rw [List.mapM_cons]
    split at ho
    · cases ho
    · next e hout =>
      rw [hsaid.run_eq hout]
      exact Option.some.inj ho
    · next r hout =>
      obtain ⟨o', ho', rfl⟩ := Option.map_eq_some_iff.1 ho
      rw [hsaid.run_eq hout, ih ho']
      cases o' <;> rfl

end Job

namespace Pool

variable {inputs : List PassInput} {engine : Engine}

/-- A run gives back what the passes yield one after another. -/
theorem Follows.mapM_run {t : Schedule} {p : Pool} {o : Outcome (List PassResult)}
    (h : Follows inputs engine t p) (ho : Job.outcomes? p.jobs = some o) :
    inputs.mapM Pass.run = o := by
  refine Job.mapM_run_of_outcomes? (List.forall₂_iff_get.2 ⟨h.length.symm, ?_⟩) ho
  intro k hk hk'
  exact ⟨t.of k, h.jobs k _ _ (List.getElem?_eq_getElem hk) (List.getElem?_eq_getElem hk')⟩

/-- In the schedule of a complete run each pass emits all its diagnostics in their order. -/
theorem Follows.isOf {t : Schedule} {p : Pool} {results : List PassResult}
    (h : Follows inputs engine t p) (ho : Job.outcomes? p.jobs = some (.ok results)) :
    t.IsOf results := by
  have hjobs := Job.eq_map_of_outcomes? ho
  have hlength : inputs.length = results.length := by
    rw [← h.length, hjobs, List.length_map]
  intro k
  by_cases hk : k < results.length
  · have hjob : p.jobs[k]? = some (.emitting results[k] []) := by
      rw [hjobs, List.getElem?_map, List.getElem?_eq_getElem hk]
      rfl
    obtain ⟨-, hsaid⟩ := h.jobs k _ _ (List.getElem?_eq_getElem (hlength ▸ hk)) hjob
    rw [List.getElem?_eq_getElem hk, Option.map_some, Option.getD_some, ← hsaid, List.append_nil]
  · rw [List.getElem?_eq_none (Nat.le_of_not_lt hk)]
    refine List.filterMap_eq_nil_iff.2 fun x hx => if_neg ?_
    have := h.lt_length x hx
    omega

/-! ## Every schedule is met -/

variable (engine) in
/-- All passes of a batch can be run before any of them emits. -/
theorem reaches_emitting {results : List PassResult}
    (h : List.Forall₂ (fun input r => Pass.run input = .ok r) inputs results) (started : List Job) :
    Reaches ⟨engine, started ++ inputs.map .waiting⟩
      ⟨engine, started ++ results.map fun r => .emitting r r.diagnostics⟩ := by
  induction h generalizing started with
  | nil => exact .refl
  | @cons input r inputs results hrun _ ih =>
    have hstep : Step ⟨engine, started ++ (input :: inputs).map .waiting⟩
        ⟨engine, started ++ .emitting r r.diagnostics :: inputs.map .waiting⟩ := by
      have hget : (started ++ (input :: inputs).map .waiting)[started.length]? =
          some (.waiting input) := by
        rw [List.getElem?_append_right le_rfl]
        simp
      have hnext := Step.job (p := ⟨engine, started ++ (input :: inputs).map .waiting⟩) hget
        (.start hrun)
      rwa [List.set_append_right _ _ le_rfl, Nat.sub_self] at hnext
    have hrest := ih (started ++ [.emitting r r.diagnostics])
    rw [List.append_assoc, List.append_assoc] at hrest
    exact .head hstep hrest

/-- The passes of a batch, each with what a schedule leaves it to emit. -/
def emitting (results : List PassResult) (t : Schedule) : List Job :=
  results.mapIdx fun k r => .emitting r (Schedule.of k t)

theorem emitting_nil (results : List PassResult) :
    emitting results [] = results.map fun r => .emitting r [] :=
  List.ext_getElem? fun k => by simp [emitting]

theorem getElem?_emitting {results : List PassResult} {k : Nat} (hk : k < results.length)
    (t : Schedule) :
    (emitting results t)[k]? = some (.emitting results[k] (Schedule.of k t)) := by
  rw [emitting, List.getElem?_mapIdx, List.getElem?_eq_getElem hk, Option.map_some]

theorem set_emitting {results : List PassResult} {k : Nat} (hk : k < results.length)
    (d : Diagnostic) (t : Schedule) :
    (emitting results ((k, d) :: t)).set k (.emitting results[k] (Schedule.of k t)) =
      emitting results t := by
  refine List.ext_getElem? fun j => ?_
  by_cases hj : k = j
  · subst hj
    rw [List.getElem?_set_self (by simpa [emitting] using hk), getElem?_emitting hk]
  · rw [List.getElem?_set_ne hj]
    simp only [emitting, List.getElem?_mapIdx, Schedule.of_cons_of_ne hj]

/-- Passes that have the diagnostics of a schedule to emit can emit them in its order. -/
theorem reaches_emitted (results : List PassResult) {t : Schedule}
    (h : ∀ x ∈ t, x.1 < results.length) (engine : Engine) :
    Reaches ⟨engine, emitting results t⟩
      ⟨engine.emitAll (t.map (·.2)), results.map fun r => .emitting r []⟩ := by
  induction t generalizing engine with
  | nil =>
    rw [emitting_nil]
    exact .refl
  | cons x t ih =>
    obtain ⟨k, d⟩ := x
    have hk : k < results.length := h _ (List.mem_cons_self ..)
    have hget := getElem?_emitting hk ((k, d) :: t)
    rw [Schedule.of_cons_self] at hget
    have hstep := Step.job (p := ⟨engine, emitting results ((k, d) :: t)⟩) hget (.emit ..)
    rw [set_emitting hk] at hstep
    exact .head hstep (ih (fun x hx => h x (List.mem_cons_of_mem _ hx)) _)

variable (engine) in
/-- **Every interleaving of the diagnostics is met by a run.** -/
theorem exists_reaches_of_isOf {results : List PassResult} {t : Schedule}
    (h : inputs.mapM Pass.run = .ok results) (ht : t.IsOf results) :
    ∃ p, (start inputs engine).Reaches p ∧ Job.outcomes? p.jobs = some (.ok results) ∧
      p.engine = engine.emitAll (t.map (·.2)) := by
  have hstart := reaches_emitting engine (Outcome.mapM_eq_ok_iff.1 h) []
  have hall : (results.map fun r => Job.emitting r r.diagnostics) = emitting results t :=
    List.ext_getElem? fun k => by
      by_cases hk : k < results.length
      · rw [getElem?_emitting hk, ht k, List.getElem?_map, List.getElem?_eq_getElem hk]
        rfl
      · simp [emitting, Nat.le_of_not_lt hk]
  rw [List.nil_append, List.nil_append, hall] at hstart
  exact ⟨_, hstart.trans (reaches_emitted results (fun _ hx => (ht.exists_mem hx).1) engine),
    Job.outcomes?_map_emitting results, rfl⟩

end Pool

/-! ## What does not depend on the schedule -/

namespace Diagnostic

/-- Whether diagnostics at one place are the same. -/
def AgreeAtPlaces (ds es : List Diagnostic) : Prop :=
  ∀ d ∈ ds, ∀ e ∈ es, d.sortKey = e.sortKey → d = e

end Diagnostic

namespace Schedule

variable {results : List PassResult}

/-- If diagnostics of different passes at one place are equal, all schedules are sorted alike. -/
theorem sort_eq_of_agree {t u : Schedule} (ht : t.IsOf results) (hu : u.IsOf results)
    (h : results.Pairwise fun r s => Diagnostic.AgreeAtPlaces r.diagnostics s.diagnostics)
    (ds : List Diagnostic) :
    Diagnostic.sort (ds ++ t.map (·.2)) = Diagnostic.sort (ds ++ u.map (·.2)) := by
  refine Diagnostic.sort_eq_sort_iff.2 fun key => ?_
  rw [Diagnostic.atKey_append, Diagnostic.atKey_append]
  refine congrArg _ ?_
  have hat (v : Schedule) : Diagnostic.atKey key (v.map (·.2)) =
      (v.filter fun x => x.2.sortKey = key).map (·.2) := List.filter_map ..
  rw [hat, hat]
  refine map_snd_eq_of_agree (fun k => ?_) ?_
  · rw [of_filter, of_filter, ht, hu]
  · intro x hx y hy hne
    obtain ⟨hxt, hxkey⟩ := List.mem_filter.1 hx
    obtain ⟨hyt, hykey⟩ := List.mem_filter.1 hy
    obtain ⟨hi, hd⟩ := ht.exists_mem hxt
    obtain ⟨hj, he⟩ := ht.exists_mem hyt
    have hsame : x.2.sortKey = y.2.sortKey :=
      (of_decide_eq_true hxkey).trans (of_decide_eq_true hykey).symm
    have hpairs := List.pairwise_iff_getElem.1 h
    rcases Nat.lt_or_gt_of_ne hne with hlt | hgt
    · exact hpairs _ _ hi hj hlt _ hd _ he hsame
    · exact (hpairs _ _ hj hi hgt _ he _ hd hsame.symm).symm

variable (results) in
/-- What the passes other than two emit, one pass after another. -/
def others (i j : Nat) : Schedule := (inTurn results).filter fun x => x.1 ≠ i ∧ x.1 ≠ j

theorem of_others_left (i j : Nat) : of i (others results i j) = [] := by
  rw [others, of_filter]
  exact List.filter_eq_nil_iff.2 fun _ _ => by simp

theorem of_others_right (i j : Nat) : of j (others results i j) = [] := by
  rw [others, of_filter]
  exact List.filter_eq_nil_iff.2 fun _ _ => by simp

theorem of_others_of_ne {i j k : Nat} (hi : k ≠ i) (hj : k ≠ j) :
    of k (others results i j) = (results[k]?.map (·.diagnostics)).getD [] := by
  rw [others, of_filter, isOf_inTurn results k]
  exact List.filter_eq_self.2 fun _ _ => by simp [hi, hj]

variable (results) in
/-- Two passes go on up to a diagnostic of each, emit the two in the order of `two`, and then go on
to their ends; the other passes follow. -/
def meeting (i j : Nat) (before before' : List Diagnostic) (two : Schedule)
    (after after' : List Diagnostic) : Schedule :=
  row i before ++ row j before' ++ two ++ row i after ++ row j after' ++ others results i j

/-- Whichever of the two diagnostics comes first, each pass emits its own in their order. -/
theorem isOf_meeting {i j : Nat} (hi : i < results.length) (hj : j < results.length) (hne : i ≠ j)
    {d e : Diagnostic} {before after before' after' : List Diagnostic}
    (hdiagnostics : results[i].diagnostics = before ++ d :: after)
    (hdiagnostics' : results[j].diagnostics = before' ++ e :: after') {two : Schedule}
    (htwo : two = [(i, d), (j, e)] ∨ two = [(j, e), (i, d)]) :
    IsOf results (meeting results i j before before' two after after') := by
  intro k
  simp only [meeting, of_append]
  rcases eq_or_ne k i with rfl | hki
  · have hd : of k two = [d] := by
      rcases htwo with rfl | rfl <;> simp [of_cons_self, of_cons_of_ne hne.symm]
    simp [hd, of_row_of_ne hne.symm, of_others_left, List.getElem?_eq_getElem hi, hdiagnostics]
  · rcases eq_or_ne k j with rfl | hkj
    · have he : of k two = [e] := by
        rcases htwo with rfl | rfl <;> simp [of_cons_self, of_cons_of_ne hne]
      simp [he, of_row_of_ne hne, of_others_right, List.getElem?_eq_getElem hj, hdiagnostics']
    · have hnone : of k two = [] := by
        rcases htwo with rfl | rfl <;> simp [of_cons_of_ne hki.symm, of_cons_of_ne hkj.symm]
      simp [hnone, of_row_of_ne hki.symm, of_row_of_ne hkj.symm, of_others_of_ne hki hkj]

/-- If diagnostics of two passes at one place differ, two schedules that differ in which of the two
comes first are sorted differently. -/
theorem exists_sort_ne {i j : Nat} (hi : i < results.length) (hj : j < results.length)
    (hne : i ≠ j) {d e : Diagnostic} (hd : d ∈ results[i].diagnostics)
    (he : e ∈ results[j].diagnostics) (hkey : d.sortKey = e.sortKey) (hde : d ≠ e)
    (ds : List Diagnostic) :
    ∃ t u, IsOf results t ∧ IsOf results u ∧
      Diagnostic.sort (ds ++ t.map (·.2)) ≠ Diagnostic.sort (ds ++ u.map (·.2)) := by
  obtain ⟨before, after, hbefore⟩ := List.append_of_mem hd
  obtain ⟨before', after', hbefore'⟩ := List.append_of_mem he
  refine ⟨meeting results i j before before' [(i, d), (j, e)] after after',
    meeting results i j before before' [(j, e), (i, d)] after after',
    isOf_meeting hi hj hne hbefore hbefore' (.inl rfl),
    isOf_meeting hi hj hne hbefore hbefore' (.inr rfl), fun hsort => ?_⟩
  have hat := Diagnostic.sort_eq_sort_iff.1 hsort d.sortKey
  simp only [meeting, List.map_append, map_snd_row, List.map_cons, List.map_nil,
    Diagnostic.atKey_append, List.append_assoc, List.append_cancel_left_eq] at hat
  have htwo : Diagnostic.atKey d.sortKey [d, e] = [d, e] := by
    simp [Diagnostic.atKey, hkey]
  have htwo' : Diagnostic.atKey d.sortKey [e, d] = [e, d] := by
    simp [Diagnostic.atKey, hkey]
  rw [htwo, htwo'] at hat
  exact hde (List.cons.inj hat).1

end Schedule

namespace Pool

variable {inputs : List PassInput} {engine after : Engine} {results : List PassResult}

/-- The engine after a batch of one pass after another, which follows a schedule as well. -/
theorem runAll_eq_ok (h : Pass.runAll inputs engine = .ok (results, after)) :
    inputs.mapM Pass.run = .ok results ∧
      after.problems = engine.problems ++ (Schedule.inTurn results).map (·.2) := by
  obtain ⟨hresults, rfl⟩ := Pass.runAll_eq_ok_iff.1 h
  exact ⟨hresults, by rw [Engine.problems_emitAll, Schedule.map_snd_inTurn]⟩

theorem drain_eq_iff {e f : Engine} :
    e.drain = f.drain ↔ Diagnostic.sort e.problems = Diagnostic.sort f.problems :=
  ⟨fun h => congrArg Prod.fst h, fun h => congrArg (fun ds => (ds, ({} : Engine))) h⟩

/-- If diagnostics of different passes at one place are equal, no run is told from another by what
is drained after it. -/
theorem drain_eq_of_agree (h : Pass.runAll inputs engine = .ok (results, after))
    (hagree : results.Pairwise fun r s => Diagnostic.AgreeAtPlaces r.diagnostics s.diagnostics)
    {p : Pool} (hp : (start inputs engine).Reaches p)
    (hout : Job.outcomes? p.jobs = some (.ok results)) : p.engine.drain = after.drain := by
  obtain ⟨-, hafter⟩ := runAll_eq_ok h
  obtain ⟨t, ht⟩ := exists_follows hp
  rw [drain_eq_iff, ht.problems, hafter]
  exact Schedule.sort_eq_of_agree (ht.isOf hout) (Schedule.isOf_inTurn results) hagree _

/-- If diagnostics of different passes at one place differ, a run drains to another list than one
pass after another. -/
theorem exists_drain_ne (h : Pass.runAll inputs engine = .ok (results, after))
    (hagree : ¬ results.Pairwise fun r s =>
      Diagnostic.AgreeAtPlaces r.diagnostics s.diagnostics) :
    ∃ p, (start inputs engine).Reaches p ∧ Job.outcomes? p.jobs = some (.ok results) ∧
      p.engine.drain ≠ after.drain := by
  obtain ⟨hresults, -⟩ := runAll_eq_ok h
  rw [List.pairwise_iff_getElem] at hagree
  simp only [Diagnostic.AgreeAtPlaces] at hagree
  push Not at hagree
  obtain ⟨i, j, hi, hj, hlt, d, hd, e, he, hkey, hde⟩ := hagree
  obtain ⟨t, u, ht, hu, hne⟩ :=
    Schedule.exists_sort_ne hi hj hlt.ne hd he hkey hde engine.problems
  obtain ⟨p, hp, hpout, hpengine⟩ := exists_reaches_of_isOf engine hresults ht
  obtain ⟨q, hq, hqout, hqengine⟩ := exists_reaches_of_isOf engine hresults hu
  by_cases hpafter : p.engine.drain = after.drain
  · refine ⟨q, hq, hqout, fun hqafter => hne ?_⟩
    have hpq := drain_eq_iff.1 (hpafter.trans hqafter.symm)
    rwa [hpengine, hqengine, Engine.problems_emitAll, Engine.problems_emitAll] at hpq
  · exact ⟨p, hp, hpout, hpafter⟩

end Pool

/-! ## Batches -/

namespace Pass

/-- **What of a batch does not depend on scheduling.**  Whatever order its passes go on in, a batch
gives back what it gives back when they run one after another.  What is drained afterwards is the
same for every order if and only if diagnostics of different passes at one place are always equal. -/
theorem runAll_independent_iff (inputs : List PassInput) (engine : Engine) :
    (∀ p o, (Pool.start inputs engine).Reaches p → Job.outcomes? p.jobs = some o →
      o = (runAll inputs engine).map (·.1)) ∧
    ∀ results after, runAll inputs engine = .ok (results, after) →
      ((∀ p, (Pool.start inputs engine).Reaches p → Job.outcomes? p.jobs = some (.ok results) →
          p.engine.drain = after.drain) ↔
        results.Pairwise fun r s => Diagnostic.AgreeAtPlaces r.diagnostics s.diagnostics) := by
  refine ⟨fun p o hp ho => ?_, fun results after h => ⟨fun hsame => ?_, fun hagree p hp hout =>
    Pool.drain_eq_of_agree h hagree hp hout⟩⟩
  · obtain ⟨t, ht⟩ := Pool.exists_follows hp
    rw [runAll, ht.mapM_run ho]
    cases o <;> rfl
  · by_contra hagree
    obtain ⟨p, hp, hout, hne⟩ := Pool.exists_drain_ne h hagree
    exact hne (hsame p hp hout)

/-- A symbol that declares one value, and a page that documents another. -/
def greyInput (declared : String) : PassInput where
  symbol := "Kind"
  documentation := .values [{ name := "Grey" }]
  declared := .values [⟨declared, .whole 0⟩]

/-- What the pass over it yields. -/
def greyResult (declared : String) : PassResult :=
  align (greyInput declared) [{ name := "Grey" }] [⟨declared, .whole 0⟩]

/-- What is reported for the value. -/
def greyDiagnostic (declared : String) : Diagnostic :=
  .unknownValue {} [⟨declared, .whole 0⟩] "Kind" { name := "Grey" }

theorem diagnostics_greyResult {declared : String} (h : declared ≠ "Grey") :
    (greyResult declared).diagnostics = [greyDiagnostic declared] := by
  have hextra : (Reconciliation.reconcile true [{ name := "Grey" }]
      [⟨declared, .whole 0⟩]).extra = [{ name := "Grey" }] := by
    simpa [Reconciliation.reconcile, Reconciliation.ownerOf?] using
      fun hname : declared.toList = "Grey".toList => h (String.toList_inj.1 hname)
  change Diagnostic.sort (List.map _ (Reconciliation.reconcile true _ _).extra ++ []) = _
  rw [hextra]
  exact List.mergeSort_singleton _

/-- The pass over it and the same pass again report the same at one place, so that their order does
not show. -/
theorem runAll_independent_greyInput : ∃ results after,
    runAll [greyInput "Gray", greyInput "Gray"] {} = .ok (results, after) ∧
    ∀ p, (Pool.start [greyInput "Gray", greyInput "Gray"] {}).Reaches p →
      Job.outcomes? p.jobs = some (.ok results) → p.engine.drain = after.drain := by
  have hrun : runAll [greyInput "Gray", greyInput "Gray"] {} =
      .ok ([greyResult "Gray", greyResult "Gray"], _) := rfl
  refine ⟨_, _, hrun, ((runAll_independent_iff _ _).2 _ _ hrun).2 (List.pairwise_pair.2 ?_)⟩
  rw [diagnostics_greyResult (by decide)]
  intro d hd e he _
  rw [List.mem_singleton.1 hd, List.mem_singleton.1 he]

/-- Two symbols of one title in a batch report different solutions at one place, and what is drained
shows which of the two came first. -/
theorem exists_drain_ne_greyInput : ∃ results after p,
    runAll [greyInput "Gray", greyInput "Green"] {} = .ok (results, after) ∧
    (Pool.start [greyInput "Gray", greyInput "Green"] {}).Reaches p ∧
    Job.outcomes? p.jobs = some (.ok results) ∧ p.engine.drain ≠ after.drain := by
  have hrun : runAll [greyInput "Gray", greyInput "Green"] {} =
      .ok ([greyResult "Gray", greyResult "Green"], _) := rfl
  obtain ⟨p, hp, hout, hne⟩ := Pool.exists_drain_ne hrun (by
    rw [List.pairwise_pair, diagnostics_greyResult (by decide), diagnostics_greyResult (by decide)]
    intro hagree
    have := hagree _ (List.mem_singleton_self _) _ (List.mem_singleton_self _) rfl
    exact absurd (congrArg (·.solutions) this) (by decide +kernel))
  exact ⟨_, _, p, hrun, hp, hout, hne⟩

end Pass
end ValueDocs
