import ValueDocs.Proofs.Files.Paths
import ValueDocs.Proofs.KernelRuns

/-!
# Proofs/RunExits — every way a run of a kernel ends

    validate ──problems──▸ refused: no file is touched
       │
    compute ──failure without recovery──▸ the failure
       │
    persist ──▸ an output, which its file records

A run whose input is not valid puts out its problems and leaves all files as they are
(`run_of_invalid`).  Any other run computes, and persists what it found or the failure it recovered
from (`run_eq_ok_iff`), in a file that no summary goes into (`exists_goesInto`).
-/

namespace ValueDocs

/-! ## The output file -/

namespace Text

/-- The last piece ends as the text does. -/
theorem exists_getLast?_splitAt {sep : Char} (s : List Char) {t : List Char} (ht : sep ∉ t) :
    ∃ front, (splitAt sep (s ++ t)).getLast? = some (front ++ t) := by
  induction s with
  | nil => exact ⟨[], by rw [List.nil_append, splitAt_of_notMem ht]; rfl⟩
  | cons c s ih =>
    obtain ⟨front, hfront⟩ := ih
    obtain ⟨piece, pieces, hpieces⟩ := List.exists_cons_of_ne_nil (splitAt_ne_nil sep (s ++ t))
    rw [hpieces] at hfront
    by_cases hc : c = sep
    · exact ⟨front, by rw [List.cons_append, splitAt, if_pos hc, hpieces]; exact hfront⟩
    · rw [List.cons_append, splitAt_cons_of_ne hc hpieces]
      cases pieces with
      | nil =>
        obtain rfl : piece = front ++ t := Option.some.inj hfront
        exact ⟨c :: front, rfl⟩
      | cons next pieces => exact ⟨front, hfront⟩

end Text

/-- The last part of a path ends as its text does. -/
theorem Path.exists_getLast?_ofString (s : String) {t : String} (hslash : '/' ∉ t.toList)
    (hlong : 1 < t.toList.length) :
    ∃ name, (ofString (s ++ t)).parts.getLast? = some name ∧ t.toList <:+ name.toList := by
  obtain ⟨front, hfront⟩ := Text.exists_getLast?_splitAt s.toList hslash
  obtain ⟨pieces, hpieces⟩ := List.getLast?_eq_some_iff.1 hfront
  have hlength : 1 < (front ++ t.toList).length := by
    rw [List.length_append]
    omega
  have hkept : front ++ t.toList ≠ [] ∧ front ++ t.toList ≠ ['.'] :=
    ⟨fun h => by simp [h] at hlength, fun h => by simp [h] at hlength⟩
  refine ⟨String.ofList (front ++ t.toList), ?_, front, String.toList_ofList.symm⟩
  rw [ofString, String.toList_append, hpieces, List.filter_append, List.filter_singleton,
    decide_eq_true hkept, List.map_append, List.getLast?_append]
  rfl

namespace Kernel

variable {k : Kernel} {input : KernelInput} {out : KernelOutput} {w w' : World}

/-- Whether a file has the name of an output. -/
def IsOutputName (name : String) : Prop := ".json".toList <:+ name.toList

/-- Whether a file has the name of a summary. -/
def IsSummaryName (name : String) : Prop := ".summary.txt".toList <:+ name.toList

theorem IsOutputName.ne_parent {name : String} (h : IsOutputName name) : name ≠ ".." := by
  rintro rfl
  exact absurd h.length_le (by decide +kernel)

theorem IsSummaryName.ne_parent {name : String} (h : IsSummaryName name) : name ≠ ".." := by
  rintro rfl
  exact absurd h.length_le (by decide +kernel)

/-- No file has both names, which end otherwise. -/
theorem IsOutputName.ne {name summaryName : String} (h : IsOutputName name)
    (h' : IsSummaryName summaryName) : name ≠ summaryName := by
  rintro rfl
  rcases List.suffix_or_suffix_of_suffix h h' with hend | hend <;>
    exact absurd hend (by decide +kernel)

/-- **An output goes into a file of its kernel's name**, and its summary into another file. -/
theorem exists_goesInto (hout : out.outputFile = k.outputPath input.workspace) :
    ∃ name summaryName, IsOutputName name ∧ IsSummaryName summaryName ∧
      GoesInto out name summaryName := by
  obtain ⟨name, hlast, hname⟩ :=
    Path.exists_getLast?_ofString k.name (t := ".json") (by decide) (by decide)
  have hfile : out.outputFile.parts.getLast? = some name := by
    rw [hout]
    change (Path.join _ _).parts.getLast? = _
    rw [Path.join]
    split
    · exact hlast
    · rw [List.getLast?_append, hlast]
      rfl
  have hsummaryName : IsSummaryName (out.outputFile.stem ++ ".summary.txt") :=
    ⟨_, (String.toList_append ..).symm⟩
  refine ⟨name, _, hname, hsummaryName, hfile, ?_, IsOutputName.ne_parent hname,
    hsummaryName.ne_parent, IsOutputName.ne hname hsummaryName⟩
  rw [Path.withExtension, List.getLast?_append]
  rfl

/-! ## Exits -/

theorem run_forM_tell {α : Type} (ms : List α) (f : α → Message) (w : World) :
    (ms.forM fun m => Work.tell (f m)).run w = (.ok (), { w with log := w.log ++ ms.map f }) := by
  induction ms generalizing w with
  | nil => rw [List.map_nil, List.append_nil]; rfl
  | cons m ms ih =>
    have htell : (Work.tell (f m)).run w = (.ok (), { w with log := w.log ++ [f m] }) := rfl
    rw [List.map_cons, List.append_cons]
    exact (Work.run_bind_of_eq_ok htell _).trans (ih _)

/-- **A run whose input is not valid** puts out its problems and leaves the files as they are. -/
theorem run_of_invalid {problems : List String} (h : k.validate w.files input = .ok problems)
    (hne : problems ≠ []) : ∃ log, (k.run input).run w =
      (.ok (k.invalidOutput problems (k.outputPath input.workspace)), { w with log }) := by
  obtain ⟨problem, problems, rfl⟩ := List.exists_cons_of_ne_nil hne
  rw [run, Work.run_bind_of_eq_ok (Work.run_files w), h,
    Work.run_bind_of_eq_ok (Work.run_ofOutcome _ w)]
  exact ⟨_, Work.run_bind_of_eq_ok (run_forM_tell _ _ w) _⟩

/-- **A run that is refused** puts out its problems, and changes no file. -/
theorem exists_of_run_of_invalid (h : (k.run input).run w = (.ok out, w'))
    (hinvalid : k.validate w.files input ≠ .ok []) :
    ∃ problems, k.validate w.files input = .ok problems ∧
      out = k.invalidOutput problems (k.outputPath input.workspace) ∧ w'.files = w.files := by
  cases hproblems : k.validate w.files input with
  | error f =>
    rw [run, Work.run_bind_of_eq_ok (Work.run_files w), hproblems] at h
    cases h
  | ok problems =>
    obtain ⟨log, hlog⟩ := run_of_invalid hproblems fun hnil => hinvalid (hnil ▸ hproblems)
    obtain ⟨hout, rfl⟩ := Prod.mk.inj (h.symm.trans hlog)
    exact ⟨problems, rfl, Except.ok.inj hout, rfl⟩

/-- Whether a kernel recovers from what a computation fails with, if it fails. -/
def IsRecovered (computed : Outcome Findings) : Prop :=
  ∀ f, computed = .error f → f.isRecoverable = true

instance (computed : Outcome Findings) : Decidable (IsRecovered computed) :=
  match computed with
  | .ok _ => .isTrue (by rintro _ ⟨⟩)
  | .error f => decidable_of_iff (f.isRecoverable = true)
    ⟨by rintro h _ ⟨⟩; exact h, fun h => h f rfl⟩

/-- What a computation is put out as: what was found, or the failure. -/
def attemptedOutput (k : Kernel) (outputFile : Path) : Outcome Findings → KernelOutput
  | .ok found => k.soundOutput found outputFile
  | .error f => k.failedOutput f outputFile

/-- The state after a computation, where a failure is told of. -/
def told (k : Kernel) (w : World) : Outcome Findings → World
  | .ok _ => w
  | .error f =>
    { w with log := w.log ++ [⟨.error, "[" ++ k.name ++ "] Computation failed: " ++ f.report⟩] }

@[simp] theorem told_files (w : World) (computed : Outcome Findings) :
    (k.told w computed).files = w.files := by
  cases computed <;> rfl

theorem run_attempt {computed : Outcome Findings} {w₁ : World} {outputFile : Path}
    (h : (k.compute input).run w = (computed, w₁)) (hrecovered : IsRecovered computed) :
    (k.attempt input outputFile).run w =
      (.ok (k.attemptedOutput outputFile computed), k.told w₁ computed) := by
  rw [attempt, Work.run_bind_of_eq_ok (Work.run_observe _ w), h]
  cases computed with
  | ok found => rfl
  | error f =>
    dsimp only
    rw [hrecovered f rfl]
    rfl

theorem run_attempt_of_error {f : Failure} {w₁ : World} {outputFile : Path}
    (h : (k.compute input).run w = (.error f, w₁)) (hf : f.isRecoverable = false) :
    (k.attempt input outputFile).run w = (.error f, w₁) := by
  rw [attempt, Work.run_bind_of_eq_ok (Work.run_observe _ w), h]
  dsimp only
  rw [hf]
  rfl

/-- What a run puts out that has computed. -/
def computedOutput (k : Kernel) (input : KernelInput) (computed : Outcome Findings) :
    KernelOutput :=
  { k.attemptedOutput (k.outputPath input.workspace) computed with
    inputHash := k.inputHash input
    dependenciesUsed := (input.dependencies.map (·.1)).mergeSort }

@[simp] theorem computedOutput_outputFile (computed : Outcome Findings) :
    (k.computedOutput input computed).outputFile = k.outputPath input.workspace := by
  cases computed <;> rfl

/-- A run whose input is valid goes on to compute. -/
theorem run_of_valid (h : k.validate w.files input = .ok []) : (k.run input).run w =
    (do
      let out ← k.attempt input (k.outputPath input.workspace)
      let out := { out with
        inputHash := k.inputHash input
        dependenciesUsed := (input.dependencies.map (·.1)).mergeSort }
      persist out input.now
      return out : Work KernelOutput).run w := by
  rw [run, Work.run_bind_of_eq_ok (Work.run_files w), h,
    Work.run_bind_of_eq_ok (Work.run_ofOutcome _ w)]
  rfl

/-- **A run whose input is valid** gives an output just if it recovers from what its computation
does and can persist what comes of it. -/
theorem run_eq_ok_iff (hvalid : k.validate w.files input = .ok []) :
    (k.run input).run w = (.ok out, w') ↔
      ∃ computed w₁, (k.compute input).run w = (computed, w₁) ∧ IsRecovered computed ∧
        out = k.computedOutput input computed ∧
        (persist out input.now).run (k.told w₁ computed) = (.ok (), w') := by
  rw [run_of_valid hvalid]
  rcases hcompute : (k.compute input).run w with ⟨computed, w₁⟩
  by_cases hrecovered : IsRecovered computed
  · rw [Work.run_bind_of_eq_ok (run_attempt hcompute hrecovered), Work.run_bind_eq_ok_iff]
    constructor
    · rintro ⟨_, w₂, hpersist, hreturn⟩
      obtain ⟨hout, rfl⟩ := Prod.mk.inj hreturn
      obtain rfl := Except.ok.inj hout
      exact ⟨computed, w₁, rfl, hrecovered, rfl, hpersist⟩
    · rintro ⟨_, _, ⟨⟩, -, rfl, hpersist⟩
      exact ⟨(), w', hpersist, rfl⟩
  · obtain ⟨f, rfl, hf⟩ : ∃ f, computed = .error f ∧ f.isRecoverable = false := by
      simpa [IsRecovered] using hrecovered
    rw [Work.run_bind, run_attempt_of_error hcompute hf]
    constructor
    · exact nofun
    · rintro ⟨_, _, ⟨⟩, hrecovered', -⟩
      exact absurd hrecovered' hrecovered

/-- An output names the output file of its kernel. -/
theorem outputFile_of_run (h : (k.run input).run w = (.ok out, w')) :
    out.outputFile = k.outputPath input.workspace := by
  by_cases hvalid : k.validate w.files input = .ok []
  · obtain ⟨computed, _, -, -, rfl, -⟩ := (run_eq_ok_iff hvalid).1 h
    exact computedOutput_outputFile computed
  · obtain ⟨problems, -, rfl, -⟩ := exists_of_run_of_invalid h hvalid
    rfl

end Kernel
end ValueDocs
