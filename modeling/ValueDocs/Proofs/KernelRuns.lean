import ValueDocs.Kernel
import ValueDocs.Proofs.Files.Frame
import ValueDocs.Proofs.Json.RoundTrip
import ValueDocs.Proofs.Work

/-!
# Proofs/KernelRuns — what a successful run of a kernel leaves behind

A run that succeeds has computed its data and left it in its output file (`exists_of_run`), where a
later kernel finds it as long as nothing writes to that file and the record in it reads back
(`loadData_eq`).
-/

namespace ValueDocs

/-- Whether the record of an output is read back from its written form. -/
def KernelOutput.ReadsBack (out : KernelOutput) (now : String) : Prop :=
  Json.parse (Kernel.outputRecord out now).pretty = .ok (Kernel.outputRecord out now)

/-- Ordinary data is read back. -/
theorem KernelOutput.readsBack_of_isOrdinary {out : KernelOutput} (h : out.data.IsOrdinary)
    (now : String) : out.ReadsBack now :=
  Json.parse_pretty ⟨by simp, ⟨⟨by simp, trivial, trivial, by decide, trivial, trivial, trivial,
    trivial⟩, h, trivial⟩⟩

namespace Kernel

variable {k : Kernel} {input : KernelInput} {out : KernelOutput} {w w' : World}

/-- An attempt that succeeds has computed what it puts out. -/
theorem exists_of_attempt {outputFile : Path}
    (h : (k.attempt input outputFile).run w = (.ok out, w')) (hsuccess : out.success = true) :
    ∃ found, (k.compute input).run w = (.ok found, w') ∧ out = k.soundOutput found outputFile := by
  rw [attempt, Work.run_bind_of_eq_ok (Work.run_observe _ w)] at h
  split at h
  · next found hfound =>
    obtain ⟨hout, rfl⟩ := Prod.mk.inj h
    exact ⟨found, Prod.ext hfound rfl, (Except.ok.inj hout).symm⟩
  · next f _ =>
    -- a failure is thrown or put out, and neither is a success
    split at h
    · cases h
    · obtain ⟨hout, -⟩ := Prod.mk.inj h
      rw [← Except.ok.inj hout] at hsuccess
      cases hsuccess

/-- **A run that succeeds has computed its data**, and left an output with it. -/
theorem exists_of_run (h : (k.run input).run w = (.ok out, w')) (hsuccess : out.success = true) :
    ∃ found w₁, (k.compute input).run w = (.ok found, w₁) ∧ out.data = found.data ∧
      out.outputFile = k.outputPath input.workspace ∧
      (persist out input.now).run w₁ = (.ok (), w') := by
  rw [run, Work.run_bind_of_eq_ok (Work.run_files w)] at h
  obtain ⟨problems, -, hrest⟩ := Work.run_ofOutcome_bind_eq_ok_iff.1 h
  split at hrest
  · -- an input that is not valid is no success
    obtain ⟨-, _, -, hinvalid⟩ := Work.run_bind_eq_ok_iff.1 hrest
    obtain ⟨hout, -⟩ := Prod.mk.inj hinvalid
    rw [← Except.ok.inj hout] at hsuccess
    cases hsuccess
  · obtain ⟨made, w₁, hmade, hlast⟩ := Work.run_bind_eq_ok_iff.1 hrest
    obtain ⟨_, w₂, hpersist, hreturn⟩ := Work.run_bind_eq_ok_iff.1 hlast
    obtain ⟨hout, rfl⟩ := Prod.mk.inj hreturn
    obtain rfl := Except.ok.inj hout
    obtain ⟨found, hfound, rfl⟩ := exists_of_attempt hmade hsuccess
    exact ⟨found, w₁, hfound, rfl, rfl, hpersist⟩

/-- What a run that succeeds puts out, and the state it leaves. -/
def success? (k : Kernel) (input : KernelInput) (w : World) : Option (KernelOutput × World) :=
  match (k.run input).run w with
  | (.ok out, w') => if out.success then some (out, w') else none
  | (.error _, _) => none

theorem success?_eq_some_iff : k.success? input w = some (out, w') ↔
    (k.run input).run w = (.ok out, w') ∧ out.success = true := by
  rw [success?]
  split
  · next out₁ w₁ hrun =>
    rw [hrun, Option.ite_none_right_eq_some, Option.some.injEq, Prod.mk.injEq, Prod.mk.injEq,
      Except.ok.injEq]
    constructor
    · rintro ⟨hsuccess, rfl, rfl⟩
      exact ⟨⟨rfl, rfl⟩, hsuccess⟩
    · rintro ⟨⟨rfl, rfl⟩, hsuccess⟩
      exact ⟨hsuccess, rfl, rfl⟩
  · next hrun =>
    rw [hrun]
    exact ⟨nofun, fun h => nomatch h.1⟩

/-- A run depends on a computation only through what it does in the state that the run starts from. -/
theorem run_congr {compute' : KernelInput → Work Findings}
    (h : (k.compute input).run w = (compute' input).run w) :
    (k.run input).run w = (Kernel.run { k with compute := compute' } input).run w := by
  have hattempt (outputFile : Path) : (k.attempt input outputFile).run w =
      (Kernel.attempt { k with compute := compute' } input outputFile).run w := by
    rw [attempt, attempt, Work.run_bind_of_eq_ok (Work.run_observe _ w),
      Work.run_bind_of_eq_ok (Work.run_observe _ w), h]
    rfl
  refine Work.run_bind_congr rfl fun files w₁ hfiles => ?_
  obtain ⟨_, rfl⟩ := Prod.mk.inj hfiles
  refine Work.run_bind_congr rfl fun problems w₂ hproblems => ?_
  obtain ⟨_, rfl⟩ := Work.run_ofOutcome_eq_ok_iff.1 hproblems
  cases problems with
  | cons problem rest => rfl
  | nil => exact Work.run_bind_congr (hattempt _) fun out w₃ _ => rfl

/-! ## What stands in the output file -/

/-- Whether an output goes into a file of a name, with its summary in a file beside it. -/
structure GoesInto (out : KernelOutput) (name summaryName : String) : Prop where
  file : out.outputFile.parts.getLast? = some name
  summaryFile : (out.outputFile.withExtension ".summary.txt").parts.getLast? = some summaryName
  name_ne : name ≠ ".."
  summaryName_ne : summaryName ≠ ".."
  ne : name ≠ summaryName

/-- The changes to files by which an output is persisted. -/
theorem run_persist_eq_ok_iff {now : String} : (persist out now).run w = (.ok (), w') ↔
    ∃ t₁ t₂ t₃, w.files.makeDirectories out.outputFile.parent = .ok t₁ ∧
      t₁.writeText out.outputFile (outputRecord out now).pretty = .ok t₂ ∧
      t₂.writeText (out.outputFile.withExtension ".summary.txt") out.summary = .ok t₃ ∧
      w' = { w with files := t₃ } := by
  rw [persist]
  simp only [Work.run_bind_eq_ok_iff, Work.run_change_eq_ok_iff, FileTree.withDirectories,
    FileTree.withText, FileTree.outcomeAt_eq_ok_iff]
  constructor
  · rintro ⟨_, _, ⟨t₁, ht₁, rfl⟩, _, _, ⟨t₂, ht₂, rfl⟩, t₃, ht₃, rfl⟩
    exact ⟨t₁, t₂, t₃, ht₁, ht₂, ht₃, rfl⟩
  · rintro ⟨t₁, t₂, t₃, ht₁, ht₂, ht₃, rfl⟩
    exact ⟨(), _, ⟨t₁, ht₁, rfl⟩, (), _, ⟨t₂, ht₂, rfl⟩, t₃, ht₃, rfl⟩

/-- **What a persisted output leaves.**  Its record stands in its file, and of what was there before
only this file and that of the summary may have changed. -/
theorem exists_of_persist {name summaryName now : String} (hout : GoesInto out name summaryName)
    (h : (persist out now).run w = (.ok (), w')) :
    ∃ place summaryPlace, w'.files.locate out.outputFile = .ok place ∧
      place.getLast? = some name ∧ summaryPlace.getLast? = some summaryName ∧
      w'.files.readBytes out.outputFile =
        .ok (Text.Utf8.encode (outputRecord out now).pretty.toList) ∧
      FileTree.Frame [place, summaryPlace] w.files w'.files := by
  obtain ⟨t₁, t₂, t₃, ht₁, ht₂, ht₃, rfl⟩ := run_persist_eq_ok_iff.1 h
  have hframe₁ := FileTree.Frame.makeDirectories ht₁
  obtain ⟨place, hplace, hframe₂, hbytes⟩ := FileTree.Frame.writeText ht₂
  obtain ⟨place', hplace', hframe₃, -⟩ := FileTree.Frame.writeText ht₃
  have hlast := FileTree.getLast?_of_locate hout.file hout.name_ne hplace
  have hlast' := FileTree.getLast?_of_locate hout.summaryFile hout.summaryName_ne hplace'
  have hne : place ∉ [place'] := fun hmem => by
    rw [List.mem_singleton.1 hmem, hlast'] at hlast
    exact hout.ne (Option.some.inj hlast).symm
  exact ⟨place, place', hframe₃.locate (hframe₂.locate hplace), hlast, hlast',
    hframe₃.readBytes (hframe₂.locate hplace) hne hbytes, (hframe₁.trans hframe₂).trans hframe₃⟩

/-- A record that reads back is read where it was written. -/
theorem readJson_eq {files : FileTree} {p : Path} {now : String} (hback : out.ReadsBack now)
    (hread : files.readBytes p = .ok (Text.Utf8.encode (outputRecord out now).pretty.toList)) :
    files.readJson p = .ok (outputRecord out now) := by
  rw [KernelOutput.ReadsBack, Json.parse] at hback
  rw [FileTree.readJson, FileTree.readText_eq_of_readBytes (Json.arePlain_pretty _) hread]
  simp only [bind, Except.bind]
  rw [hback]
  rfl

/-- **A later kernel finds the data of a success** that reads back. -/
theorem loadData_eq {files : FileTree} {p : Path} {now : String} (hsuccess : out.success = true)
    (hback : out.ReadsBack now)
    (hread : files.readBytes p = .ok (Text.Utf8.encode (outputRecord out now).pretty.toList)) :
    loadData files p = .ok out.data := by
  rw [loadData, loadDataAt, readJson_eq hback hread]
  change (if !(Json.bool out.success).truthy then throw _ else _) = _
  rw [hsuccess]
  rfl

/-- **A later kernel finds no data of a failure**, whose record reads back. -/
theorem loadData_of_failure {files : FileTree} {p : Path} {now : String}
    (hsuccess : out.success = false) (hback : out.ReadsBack now)
    (hread : files.readBytes p = .ok (Text.Utf8.encode (outputRecord out now).pretty.toList)) :
    loadData files p = .error (.failedDependency p.toString) := by
  rw [loadData, loadDataAt, readJson_eq hback hread]
  change (if !(Json.bool out.success).truthy then throw _ else _) = _
  rw [hsuccess]
  rfl

end Kernel
end ValueDocs
