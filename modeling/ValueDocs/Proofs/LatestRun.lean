import ValueDocs.Proofs.RunExits

/-!
# Proofs/LatestRun — whose output stands in a file

Runs follow one another in a workspace while other files come and go.  Each run that computes leaves
its record in its output file, whether it succeeds or fails (`Kernel.Runs.standsAt_of_valid`), and
no other run touches that file (`Kernel.keeps_of_run`).  But a run that is refused, since its input
is not valid, leaves the file to the run before it.

So the file always tells of the latest run that computed (`History.standsAt`), and it tells of the
latest run of all just if this one computed, or found no data of a success there
(`History.isOnDisk_iff`).
-/

namespace ValueDocs

/-! ## Paths that meet -/

namespace FileTree

variable {t t' t'' : FileTree} {p q : Path}

/-- Whether two paths lead to one place. -/
def Meet (t : FileTree) (p q : Path) : Prop :=
  ∃ place, t.locate p = .ok place ∧ t.locate q = .ok place

/-- Whether the file at a path, if there is one, is as it was. -/
def Keeps (p : Path) (t t' : FileTree) : Prop :=
  ∀ bytes, t.readBytes p = .ok bytes → t'.readBytes p = .ok bytes

theorem Keeps.trans (h : Keeps p t t') (h' : Keeps p t' t'') : Keeps p t t'' :=
  fun bytes hbytes => h' bytes (h bytes hbytes)

theorem Meet.readBytes (h : t.Meet p q) {bytes : List UInt8} (hbytes : t.readBytes p = .ok bytes) :
    t.readBytes q = .ok bytes := by
  obtain ⟨place, hp, hq⟩ := h
  obtain ⟨_, hp', hnode⟩ := readBytes_eq_ok_iff.1 hbytes
  obtain rfl := Except.ok.inj (hp.symm.trans hp')
  exact readBytes_eq_ok_iff.2 ⟨place, hq, hnode⟩

end FileTree

/-! ## One run -/

namespace Kernel

/-- Whether loading tells that there is no data of a success at a path. -/
def LacksData (files : FileTree) (p : Path) : Prop :=
  ∃ f, loadData files p = .error f ∧ f.kind = .runtime

/-- Whether a run gives an output, whose data reads back if it is a success. -/
structure Runs (k : Kernel) (input : KernelInput) (w : World) (out : KernelOutput) (w' : World) :
    Prop where
  returns : (k.run input).run w = (.ok out, w')
  readsBack : out.success = true → out.ReadsBack input.now

end Kernel

/-- Whether the file at a path tells of an output: its data is loaded if it is a success, and none
otherwise. -/
def KernelOutput.IsOnDisk (out : KernelOutput) (files : FileTree) (p : Path) : Prop :=
  if out.success then Kernel.loadData files p = .ok out.data else Kernel.LacksData files p

/-- Whether the record of an output stands at a path. -/
def KernelOutput.StandsAt (out : KernelOutput) (files : FileTree) (p : Path) : Prop :=
  ∃ now, out.ReadsBack now ∧
    files.readBytes p = .ok (Text.Utf8.encode (Kernel.outputRecord out now).pretty.toList)

namespace KernelOutput.StandsAt

variable {out : KernelOutput} {files files' : FileTree} {p : Path}

theorem isOnDisk (h : out.StandsAt files p) : out.IsOnDisk files p := by
  obtain ⟨now, hback, hbytes⟩ := h
  rw [IsOnDisk]
  split
  · next hsuccess => exact Kernel.loadData_eq hsuccess hback hbytes
  · next hsuccess =>
    exact ⟨_, Kernel.loadData_of_failure (eq_false_of_ne_true hsuccess) hback hbytes, rfl⟩

theorem of_keeps (h : out.StandsAt files p) (hkeeps : FileTree.Keeps p files files') :
    out.StandsAt files' p := by
  obtain ⟨now, hback, hbytes⟩ := h
  exact ⟨now, hback, hkeeps _ hbytes⟩

theorem of_meet {q : Path} (h : out.StandsAt files p) (hmeet : files.Meet p q) :
    out.StandsAt files q := by
  obtain ⟨now, hback, hbytes⟩ := h
  exact ⟨now, hback, hmeet.readBytes hbytes⟩

end KernelOutput.StandsAt

namespace Kernel

variable {k : Kernel} {input : KernelInput} {out : KernelOutput} {w w' : World} {p : Path}

/-- The record of a failure reads back. -/
theorem readsBack_of_failure {computed : Outcome Findings}
    (h : (k.computedOutput input computed).success = false) (now : String) :
    (k.computedOutput input computed).ReadsBack now := by
  cases computed with
  | ok found => cases h
  | error f =>
    exact KernelOutput.readsBack_of_isOrdinary
      (show (Json.obj [("error", .str f.report), ("error_type", .str f.kind.name)]).IsOrdinary from
        ⟨by simp, trivial, trivial, trivial⟩) now

/-- **A run that computes leaves its record in its output file.** -/
theorem Runs.standsAt_of_valid (h : k.Runs input w out w')
    (hvalid : k.validate w.files input = .ok []) : out.StandsAt w'.files out.outputFile := by
  obtain ⟨computed, w₁, -, -, rfl, hpersist⟩ := (run_eq_ok_iff hvalid).1 h.returns
  obtain ⟨_, _, -, -, hinto⟩ := exists_goesInto (computedOutput_outputFile computed)
  obtain ⟨_, _, -, -, -, hbytes, -⟩ := exists_of_persist hinto hpersist
  refine ⟨input.now, ?_, hbytes⟩
  cases hsuccess : (k.computedOutput input computed).success with
  | true => exact h.readsBack hsuccess
  | false => exact readsBack_of_failure hsuccess _

/-- **A run that computes touches no other output file**, if its computation does not. -/
theorem keeps_of_run (h : (k.run input).run w = (.ok out, w'))
    (hvalid : k.validate w.files input = .ok []) {name : String}
    (hlast : p.parts.getLast? = some name) (hname : IsOutputName name)
    (hmeet : ¬ w'.files.Meet out.outputFile p)
    (hcompute : FileTree.Keeps p w.files ((k.compute input).run w).2.files) :
    FileTree.Keeps p w.files w'.files := by
  obtain ⟨computed, w₁, hrun, -, rfl, hpersist⟩ := (run_eq_ok_iff hvalid).1 h
  obtain ⟨_, summaryName, -, hsummaryName, hinto⟩ :=
    exists_goesInto (computedOutput_outputFile computed)
  obtain ⟨place, summaryPlace, hplace, -, hsummary, -, hframe⟩ := exists_of_persist hinto hpersist
  rw [hrun] at hcompute
  refine hcompute.trans fun bytes hbytes => ?_
  rw [told_files] at hframe
  obtain ⟨own, hown, -⟩ := FileTree.readBytes_eq_ok_iff.1 hbytes
  refine hframe.readBytes hown (fun hmem => ?_) hbytes
  rcases List.mem_pair.1 hmem with rfl | rfl
  · exact hmeet ⟨own, hplace, hframe.locate hown⟩
  · have hownLast := FileTree.getLast?_of_locate hlast hname.ne_parent hown
    exact hname.ne hsummaryName (Option.some.inj (hownLast.symm.trans hsummary))

end Kernel

/-! ## A history of runs -/

open Kernel

/-- How runs follow one another, and what other files do in between.  A history keeps the output of
the latest run that computed into the file at `p`, if any has. -/
inductive History (p : Path) : (latest : Option KernelOutput) → World → Prop
  | start (w : World) : History p none w
  /-- A run computes, into the file. -/
  | computed {latest : Option KernelOutput} {w w' : World} {k : Kernel} {input : KernelInput}
    {out : KernelOutput} (h : History p latest w) (hrun : k.Runs input w out w')
    (hvalid : k.validate w.files input = .ok []) (hmeet : w'.files.Meet out.outputFile p) :
    History p (some out) w'
  /-- A run computes, into another file. -/
  | elsewhere {latest : Option KernelOutput} {w w' : World} {k : Kernel} {input : KernelInput}
    {out : KernelOutput} (h : History p latest w) (hrun : k.Runs input w out w')
    (hvalid : k.validate w.files input = .ok []) (hmeet : ¬ w'.files.Meet out.outputFile p)
    (hcompute : FileTree.Keeps p w.files ((k.compute input).run w).2.files) : History p latest w'
  /-- A run is refused. -/
  | refused {latest : Option KernelOutput} {w w' : World} {k : Kernel} {input : KernelInput}
    {out : KernelOutput} (h : History p latest w) (hrun : k.Runs input w out w')
    (hinvalid : k.validate w.files input ≠ .ok []) : History p latest w'
  /-- Other files come and go. -/
  | changed {latest : Option KernelOutput} {w w' : World} (h : History p latest w)
    (hkeeps : FileTree.Keeps p w.files w'.files) : History p latest w'

namespace History

variable {p : Path} {latest : Option KernelOutput} {w w' : World} {k : Kernel}
  {input : KernelInput} {out : KernelOutput}

/-- **The file tells of the latest run that computed.** -/
theorem standsAt (h : History p latest w) {name : String} (hlast : p.parts.getLast? = some name)
    (hname : IsOutputName name) : ∀ earlier ∈ latest, earlier.StandsAt w.files p := by
  induction h with
  | start => exact fun _ h => nomatch h
  | computed _ hrun hvalid hmeet =>
    rintro _ ⟨⟩
    exact (hrun.standsAt_of_valid hvalid).of_meet hmeet
  | elsewhere _ hrun hvalid hmeet hcompute ih =>
    exact fun earlier hearlier => (ih earlier hearlier).of_keeps
      (keeps_of_run hrun.returns hvalid hlast hname hmeet hcompute)
  | refused _ hrun hinvalid ih =>
    obtain ⟨_, -, -, hfiles⟩ := exists_of_run_of_invalid hrun.returns hinvalid
    rw [hfiles]
    exact ih
  | changed _ hkeeps ih => exact fun earlier hearlier => (ih earlier hearlier).of_keeps hkeeps

/-- **When the file tells of the latest run.**  It does so just if this run computed, or an earlier
one that did has failed, or there was no data of a success in the file.  Where it was refused, the
data of an earlier success is still loaded. -/
theorem isOnDisk_iff (h : History out.outputFile latest w) (hrun : k.Runs input w out w') :
    (out.IsOnDisk w'.files out.outputFile ↔
      k.validate w.files input = .ok [] ∨
        latest.elim (LacksData w.files out.outputFile) fun earlier => earlier.success = false) ∧
    (k.validate w.files input ≠ .ok [] → ∀ earlier ∈ latest, earlier.success = true →
      loadData w'.files out.outputFile = .ok earlier.data) := by
  obtain ⟨name, _, hname, -, hinto⟩ := exists_goesInto (outputFile_of_run hrun.returns)
  have hearlier := h.standsAt hinto.file hname
  by_cases hvalid : k.validate w.files input = .ok []
  · exact ⟨iff_of_true (hrun.standsAt_of_valid hvalid).isOnDisk (.inl hvalid),
      fun h => absurd hvalid h⟩
  · obtain ⟨problems, -, hout, hfiles⟩ := exists_of_run_of_invalid hrun.returns hvalid
    have hsuccess : out.success = false := by rw [hout]; rfl
    rw [KernelOutput.IsOnDisk, hsuccess, if_neg Bool.false_ne_true, hfiles, or_iff_right hvalid]
    -- what is loaded is what the run before it left
    cases latest with
    | none => exact ⟨Iff.rfl, fun _ _ h => nomatch h⟩
    | some earlier =>
      have hdisk := (hearlier earlier rfl).isOnDisk
      rw [KernelOutput.IsOnDisk] at hdisk
      rw [Option.elim_some]
      constructor
      · cases hsuccess : earlier.success with
        | true =>
          rw [hsuccess, if_pos rfl] at hdisk
          exact iff_of_false (fun ⟨_, hf, _⟩ => by rw [hdisk] at hf; cases hf)
            Bool.false_ne_true.symm
        | false =>
          rw [hsuccess, if_neg Bool.false_ne_true] at hdisk
          exact iff_of_true hdisk rfl
      · rintro - _ ⟨⟩ hsuccess
        rwa [hsuccess, if_pos rfl] at hdisk

/-! ## A run that is refused after one that succeeds -/

/-- A kernel that counts three items and requires another one. -/
def counting : Kernel where
  name := "count"
  requires := ["base"]
  compute _ := return ⟨.obj [("count", .int 3)], "3 item(s)."⟩

/-- An empty workspace, and the output of the kernel it requires. -/
def besideBase : World where
  files := { cwd := [], nodes := [(["ws"], .directory), (["base.json"], .file [])] }

/-- A run in this workspace that is given some outputs. -/
def givenOutputs (dependencies : List (String × Path)) : KernelInput :=
  { workspace := .ofString "ws", config := [], dependencies }

/-- A run that is given what it requires. -/
def givenBase : KernelInput := givenOutputs [("base", .ofString "base.json")]

theorem validate_givenBase : counting.validate besideBase.files givenBase = .ok [] :=
  Outcome.eq_ok_of_toOption (by decide +kernel)

/-- A run that is given what it requires succeeds, and one that is not is refused afterwards. -/
theorem exists_counting : ∃ out w', counting.Runs givenBase besideBase out w' ∧
    out.success = true ∧ out.data = .obj [("count", .int 3)] ∧
    out.outputFile = counting.outputPath (.ofString "ws") ∧
    counting.validate w'.files (givenOutputs []) = .ok ["Missing required dependency: base"] := by
  have hsome : (match counting.success? givenBase besideBase with
      | some (_, w) => (counting.validate w.files (givenOutputs [])).toOption
      | none => none) = some ["Missing required dependency: base"] := by
    decide +kernel
  split at hsome
  · next out w hout =>
    obtain ⟨hreturns, hsuccess⟩ := success?_eq_some_iff.1 hout
    obtain ⟨_, _, hcompute, hdata, hfile, -⟩ := exists_of_run hreturns hsuccess
    obtain rfl := Except.ok.inj (Prod.mk.inj hcompute).1
    exact ⟨out, w, ⟨hreturns, fun _ => KernelOutput.readsBack_of_isOrdinary (hdata ▸ by decide) _⟩,
      hsuccess, hdata, hfile, Outcome.eq_ok_of_toOption hsome⟩
  · cases hsome

/-- The first run in a workspace is on disk.  The second one is refused and is not: what is loaded
is the data of the first. -/
theorem isOnDisk_iff_counting : ∃ first w refused w',
    counting.Runs givenBase besideBase first w ∧ History first.outputFile none besideBase ∧
    first.IsOnDisk w.files first.outputFile ∧
    counting.Runs (givenOutputs []) w refused w' ∧ History refused.outputFile (some first) w ∧
    ¬ refused.IsOnDisk w'.files refused.outputFile ∧
    loadData w'.files refused.outputFile = .ok (.obj [("count", .int 3)]) := by
  obtain ⟨first, w, hrun, hsuccess, hdata, hfile, hproblems⟩ := exists_counting
  obtain ⟨log, hrefused⟩ := run_of_invalid hproblems (by simp)
  have hstands := hrun.standsAt_of_valid validate_givenBase
  -- both runs write to one file
  obtain ⟨_, -, hbytes⟩ := hstands
  obtain ⟨place, hplace, -⟩ := FileTree.readBytes_eq_ok_iff.1 hbytes
  have hhistory : History first.outputFile (some first) w :=
    .computed (.start _) hrun validate_givenBase ⟨place, hplace, hplace⟩
  rw [hfile] at hhistory
  have hinvalid : counting.validate w.files (givenOutputs []) ≠ .ok [] := by simp [hproblems]
  obtain ⟨hdisk, hloaded⟩ := isOnDisk_iff hhistory ⟨hrefused, nofun⟩
  refine ⟨first, w, _, _, hrun, .start _,
    (isOnDisk_iff (.start _) hrun).1.2 (.inl validate_givenBase), ⟨hrefused, nofun⟩, hhistory,
    fun h => ?_, hdata ▸ hloaded hinvalid first rfl hsuccess⟩
  rcases hdisk.1 h with hvalid | hfailed
  · exact hinvalid hvalid
  · exact absurd (hsuccess.symm.trans hfailed) (by decide)

/-- After a run that is refused, the data of a success before it is still loaded. -/
theorem exists_not_isOnDisk_counting : ∃ earlier w out w',
    counting.Runs givenBase besideBase earlier w ∧
    counting.Runs (givenOutputs []) w out w' ∧
    out.success = false ∧ ¬ out.IsOnDisk w'.files out.outputFile ∧
    loadData w'.files out.outputFile = .ok (.obj [("count", .int 3)]) := by
  obtain ⟨earlier, w, hrun, hsuccess, hdata, hfile, hproblems⟩ := exists_counting
  obtain ⟨log, hrefused⟩ := run_of_invalid hproblems (by simp)
  have hdisk := (hrun.standsAt_of_valid validate_givenBase).isOnDisk
  rw [KernelOutput.IsOnDisk, hsuccess, if_pos rfl, hfile, hdata] at hdisk
  refine ⟨earlier, w, _, _, hrun, ⟨hrefused, nofun⟩, rfl, ?_, hdisk⟩
  rintro ⟨f, hlacks, -⟩
  cases hdisk.symm.trans hlacks

end History
end ValueDocs
