import ValueDocs.Proofs.LoggedRecords

/-!
# Proofs/LoggedBatch — what a batch of diagnostics leaves in a log

A log is given data trees of diagnostics, of whatever severity.  Each is logged at the level that
its severity stands for, and the log passes over those below its own level.  Every other one adds an
entry to the file of lines and a record to the file of records (`DiagnosticLog.run_logDiagnostic`),
and a batch adds those of its diagnostics in order, after what the files held
(`DiagnosticLog.Logs.append`).

The number that a batch returns is that of all its diagnostics, logged or passed over.  So it is the
number of records just if no diagnostic is passed over (`DiagnosticLog.logDiagnostics_logs`).
-/

namespace ValueDocs

open Json

/-! ## Diagnostics as data trees -/

namespace Json

/-- Whether a tree is one that a diagnostic is written as: texts for its severity, which may be any,
and its summary, a text or null for its source, and a range that starts somewhere, if it has one. -/
structure IsSerialised (d : Json) : Prop where
  ordinary : d.IsOrdinary
  severity : ∃ s, d.get "severity" (.str "warning") = .ok (.str s)
  summary : ∃ s, d.get "summary" (.str "") = .ok (.str s)
  source : ∃ s, d.get "source" .null = .ok (.ofText? s)
  range : ∃ range, d.get "range" .null = .ok range ∧ (range.truthy = true →
    ∃ lower line column, range.field "lower" = .ok lower ∧
      lower.field "line" = .ok (.int line) ∧ lower.field "column" = .ok (.int column))

theorem isOrdinary_of_lookup {fields : Fields} (h : (obj fields).IsOrdinary) {name : String}
    {v : Json} (hv : fields.lookup name = some v) : v.IsOrdinary := by
  obtain ⟨before, after, rfl, -⟩ := List.lookup_eq_some_iff.1 hv
  exact areOrdinaryFields_iff.1 h.2 (name, v) (by simp)

/-- A part of an ordinary tree is ordinary. -/
theorem IsOrdinary.of_field {j v : Json} {name : String} (h : j.IsOrdinary)
    (hv : j.field name = .ok v) : v.IsOrdinary := by
  cases j with
  | obj fields =>
    rw [field] at hv
    split at hv
    next hlookup =>
      cases hv
      exact isOrdinary_of_lookup h hlookup
    · cases hv
  | _ => cases hv

theorem IsOrdinary.of_get {j v default : Json} {name : String} (h : j.IsOrdinary)
    (hdefault : default.IsOrdinary) (hv : j.get name default = .ok v) : v.IsOrdinary := by
  cases j with
  | obj fields =>
    obtain rfl : (fields.lookup name).getD default = v := Except.ok.inj hv
    cases hlookup : fields.lookup name with
    | none => exact hdefault
    | some v => exact isOrdinary_of_lookup h hlookup
  | _ => cases hv

mutual

/-- The numbers of an ordinary tree can be written. -/
theorem IsOrdinary.isWritable : ∀ {j : Json}, j.IsOrdinary → j.isWritable = true
  | null, _ | bool _, _ | str _, _ => rfl
  | int _, h => decide_eq_true h
  | arr _, h => AreOrdinary.areWritable h
  | obj _, h => AreOrdinaryFields.areWritableFields h.2

theorem AreOrdinary.areWritable : ∀ {js : List Json}, AreOrdinary js → areWritable js = true
  | [], _ => rfl
  | _ :: _, h => Bool.and_eq_true_iff.2 ⟨IsOrdinary.isWritable h.1, AreOrdinary.areWritable h.2⟩

theorem AreOrdinaryFields.areWritableFields :
    ∀ {fs : Fields}, AreOrdinaryFields fs → areWritableFields fs = true
  | [], _ => rfl
  | _ :: _, h =>
    Bool.and_eq_true_iff.2 ⟨IsOrdinary.isWritable h.1, AreOrdinaryFields.areWritableFields h.2⟩

end

theorem exists_shown {j : Json} (h : j.IsOrdinary) : ∃ s, j.shown = .ok s :=
  ⟨j.display, if_pos h.isWritable⟩

end Json

/-- **A diagnostic is written as such a tree**, if its numbers can be written. -/
theorem Diagnostic.isSerialised_toJson {d : Diagnostic} (h : d.toJson.isWritable = true) :
    d.toJson.IsSerialised where
  ordinary := isOrdinary_of_isWritable h
  severity := ⟨d.severity.name, by simp [toJson, get_cons_of_ne]⟩
  summary := ⟨d.summary, by simp [toJson, get_cons_of_ne]⟩
  source := ⟨d.source, by simp [toJson, get_cons_of_ne]⟩
  range := by
    refine ⟨Range.toJson? d.range, by simp [toJson, get_cons_of_ne], fun htruthy => ?_⟩
    cases hrange : d.range with
    | none => rw [hrange] at htruthy; cases htruthy
    | some r => exact ⟨r.lower.toJson, r.lower.line, r.lower.column, rfl, rfl, rfl⟩

namespace DiagnosticLog

/-! ## The specification -/

/-- The level of a diagnostic: that of its severity, which is a warning if it has none. -/
def levelOf (d : Json) : Outcome Level := do
  Level.ofSeverity (← d.get "severity" (.str "warning"))

section

variable (log : DiagnosticLog)

/-- Whether a diagnostic reaches the level of a log. -/
def reaches (d : Json) : Bool :=
  match levelOf d with
  | .ok level => log.takes level
  | .error _ => false

/-- The entry of a line: the time, its level, and the line. -/
def entry (line : String) (level : Level) : String :=
  "[" ++ log.now ++ "] [" ++ level.name ++ "] " ++ line

/-- Whether a text is the entry of a diagnostic. -/
def IsEntryOf (d : Json) (text : String) : Prop :=
  ∃ line level, describe d = .ok (line, level) ∧ text = log.entry line level

/-- Whether a line is the record of a diagnostic: it has no break in it, and is read as an event
that holds the diagnostic, with its fields in order. -/
structure IsRecordOf (d : Json) (line : String) : Prop where
  unbroken : Text.AreVisible line.toList
  decodes : ∃ event level, parseChars line.toList = .ok event ∧
    event.field "data" = .ok d.sorted ∧ event.field "type" = .ok (.str "diagnostic") ∧
    levelOf d = .ok level ∧ event.field "level" = .ok (.str level.name) ∧
    event.field "timestamp" = .ok (.str log.now)

/-- **What logging some diagnostics does to files**: of those that reach the level of the log, the
entries and the records are added to what the two files held, and no other file is touched. -/
structure Logs (ds : List Json) (files files' : FileTree) : Prop where
  cwd : files'.cwd = files.cwd
  entries : ∃ entries, List.Forall₂ log.IsEntryOf (ds.filter log.reaches) entries ∧
    files'.bytesAt log.textFile =
      files.bytesAt log.textFile ++ Text.Utf8.encode (textOf entries)
  records : ∃ records, List.Forall₂ log.IsRecordOf (ds.filter log.reaches) records ∧
    files'.bytesAt log.recordFile =
      files.bytesAt log.recordFile ++ Text.Utf8.encode (textOf records)
  others : ∀ p : Path, p.resolve files.cwd ≠ log.textFile.resolve files.cwd →
    p.resolve files.cwd ≠ log.recordFile.resolve files.cwd → files'.bytesAt p = files.bytesAt p

/-- Whether a log has two files that can be written. -/
structure IsOpen (files : FileTree) : Prop where
  lines : files.takesFile log.textFile = true
  records : files.takesFile log.recordFile = true
  two : log.HasTwoFiles files.cwd

end

variable {log : DiagnosticLog} {d : Json} {ds es : List Json} {files files' files'' : FileTree}
  {w : World}

/-! ## Describing a diagnostic -/

theorem exists_ofSeverity (s : String) : ∃ level, Level.ofSeverity (.str s) = .ok level := by
  rw [Level.ofSeverity.eq_def]
  split
  · exact ⟨_, rfl⟩
  · exact ⟨_, rfl⟩
  · next h => cases h
  · next h => cases h
  · exact ⟨_, rfl⟩

/-- The source that is shown is a text. -/
theorem exists_shownSource (s : Option String) :
    ∃ t, (if (ofText? s).truthy then ofText? s else str "<unknown>") = str t := by
  split
  · cases s with
    | none => contradiction
    | some t => exact ⟨t, rfl⟩
  · exact ⟨_, rfl⟩

theorem exists_placeOf (h : d.IsSerialised) : ∃ place, placeOf d = .ok place := by
  obtain ⟨s, hs⟩ := h.source
  obtain ⟨t, ht⟩ := exists_shownSource s
  obtain ⟨range, hrange, hstart⟩ := h.range
  simp only [placeOf, hs, hrange, ht, bind, Except.bind]
  by_cases htruthy : range.truthy = true
  · obtain ⟨lower, line, column, hlower, hline, hcolumn⟩ := hstart htruthy
    have hordinary := (h.ordinary.of_get (by trivial) hrange).of_field hlower
    obtain ⟨shownLine, hshownLine⟩ := exists_shown (hordinary.of_field hline)
    obtain ⟨shownColumn, hshownColumn⟩ := exists_shown (hordinary.of_field hcolumn)
    simp only [htruthy, hlower, hline, hcolumn, hshownLine, hshownColumn, text]
    exact ⟨_, rfl⟩
  · simp only [htruthy]
    exact ⟨t, rfl⟩

/-- **A diagnostic that is written as a tree has a line and a level.** -/
theorem exists_describe (h : d.IsSerialised) :
    ∃ line level, describe d = .ok (line, level) ∧ levelOf d = .ok level := by
  obtain ⟨s, hs⟩ := h.severity
  obtain ⟨level, hlevel⟩ := exists_ofSeverity s
  obtain ⟨place, hplace⟩ := exists_placeOf h
  obtain ⟨summary, hsummary⟩ := h.summary
  simp only [describe, levelOf, hs, hlevel, hplace, hsummary, bind, Except.bind]
  exact ⟨_, level, rfl, rfl⟩

theorem reaches_eq {level : Level} (h : levelOf d = .ok level) :
    log.reaches d = log.takes level := by
  rw [reaches, h]

/-- **The event of a diagnostic is written as its record.** -/
theorem exists_record (log : DiagnosticLog) (h : d.IsSerialised) {level : Level}
    (hlevel : levelOf d = .ok level) :
    ∃ line, (log.event (.str "diagnostic") d level).written = .ok line ∧ log.IsRecordOf d line := by
  have hordinary : (log.event (.str "diagnostic") d level).IsOrdinary := by
    simp [event, IsOrdinary, AreOrdinaryFields, h.ordinary]
  have hwritten := written_eq_ok_iff.2 ⟨hordinary.isWritable, rfl⟩
  refine ⟨_, hwritten, areVisible_of_written hwritten, _, level,
    hordinary.readsBack _ hwritten, ?_⟩
  simp [event, field_sorted, field_cons_of_ne, hlevel, Except.map]

/-! ## Logging -/

theorem Logs.refl (h : ds.filter log.reaches = []) : log.Logs ds files files where
  cwd := rfl
  entries := ⟨[], by rw [h]; exact .nil, (List.append_nil _).symm⟩
  records := ⟨[], by rw [h]; exact .nil, (List.append_nil _).symm⟩
  others := fun _ _ _ => rfl

/-- **What a batch adds comes in order**: first that of its first part, then that of the rest. -/
theorem Logs.append (h : log.Logs ds files files') (h' : log.Logs es files' files'') :
    log.Logs (ds ++ es) files files'' where
  cwd := h'.cwd.trans h.cwd
  entries := by
    obtain ⟨lines, hlines, hbytes⟩ := h.entries
    obtain ⟨lines', hlines', hbytes'⟩ := h'.entries
    exact ⟨lines ++ lines', List.filter_append .. ▸ List.rel_append hlines hlines',
      eq_append_textOf hbytes hbytes'⟩
  records := by
    obtain ⟨lines, hlines, hbytes⟩ := h.records
    obtain ⟨lines', hlines', hbytes'⟩ := h'.records
    exact ⟨lines ++ lines', List.filter_append .. ▸ List.rel_append hlines hlines',
      eq_append_textOf hbytes hbytes'⟩
  others := fun p hline hrecord => by
    rw [h'.others p (by rwa [h.cwd]) (by rwa [h.cwd]), h.others p hline hrecord]

/-- A text is added to a file that can be written. -/
theorem exists_run_withMoreText {p : Path} (h : w.files.takesFile p = true) (text : String) :
    ∃ files, w.files.appendText p text = .ok files ∧
      (Work.change (·.withMoreText p text)).run w = (.ok (), { w with files }) := by
  obtain ⟨files, hfiles⟩ := (FileTree.exists_appendText_iff text).2 h
  exact ⟨files, hfiles, Work.run_change_eq_ok_iff.2
    ⟨files, FileTree.outcomeAt_eq_ok_iff.2 hfiles, rfl⟩⟩

theorem IsOpen.of_appendText {p : Path} {text : String} (h : log.IsOpen files)
    (hfiles : files.appendText p text = .ok files') : log.IsOpen files' where
  lines := (FileTree.takesFile_of_appendText hfiles _).trans h.lines
  records := (FileTree.takesFile_of_appendText hfiles _).trans h.records
  two := by
    rw [HasTwoFiles, FileTree.cwd_of_appendText hfiles]
    exact h.two

/-- A diagnostic that reaches the level adds its entry and its record. -/
theorem run_logDiagnostic_of_reaches (hopen : log.IsOpen w.files) (hd : d.IsSerialised)
    (hreaches : log.reaches d = true) :
    ∃ files, (log.logDiagnostic d).run w = (.ok (), { w with files }) ∧
      log.Logs [d] w.files files ∧ log.IsOpen files := by
  obtain ⟨line, level, hdescribe, hlevel⟩ := exists_describe hd
  obtain ⟨record, hwritten, hrecord⟩ := exists_record log hd hlevel
  have htakes : log.takes level = true := (reaches_eq hlevel).symm.trans hreaches
  -- first the entry, then the record
  obtain ⟨files₁, hentry, hfirst⟩ := exists_run_withMoreText hopen.lines
    (log.entry line level ++ "\n")
  have hopen₁ := hopen.of_appendText hentry
  obtain ⟨files₂, hadd, hsecond⟩ := exists_run_withMoreText (w := { w with files := files₁ })
    hopen₁.records (record ++ "\n")
  have hcwd := FileTree.cwd_of_appendText hentry
  have hrun : (log.logDiagnostic d).run w = (.ok (), { w with files := files₂ }) := by
    rw [logDiagnostic, Work.run_ofOutcome_bind hdescribe]
    dsimp only
    rw [logLine, logEvent, if_pos htakes, if_pos htakes]
    refine (Work.run_bind_of_eq_ok hfirst _).trans ?_
    exact (Work.run_ofOutcome_bind hwritten _).trans hsecond
  refine ⟨files₂, hrun, ?_, hopen₁.of_appendText hadd⟩
  have hfilter : [d].filter log.reaches = [d] := List.filter_cons_of_pos hreaches
  refine ⟨(FileTree.cwd_of_appendText hadd).trans hcwd, ⟨[log.entry line level], ?_, ?_⟩,
    ⟨[record], ?_, ?_⟩, ?_⟩
  · rw [hfilter]
    exact .cons ⟨line, level, hdescribe, rfl⟩ .nil
  · rw [FileTree.bytesAt_of_appendText_of_ne hadd (hcwd ▸ hopen.two.symm),
      bytesAt_of_appendLine hentry]
  · rw [hfilter]
    exact .cons hrecord .nil
  · rw [bytesAt_of_appendLine hadd, FileTree.bytesAt_of_appendText_of_ne hentry hopen.two]
  · intro p hline hrecord
    rw [FileTree.bytesAt_of_appendText_of_ne hadd (hcwd ▸ hrecord.symm),
      FileTree.bytesAt_of_appendText_of_ne hentry hline.symm]

/-- A diagnostic below the level is passed over. -/
theorem run_logDiagnostic_of_not_reaches (hd : d.IsSerialised) (hreaches : log.reaches d = false) :
    (log.logDiagnostic d).run w = (.ok (), w) := by
  obtain ⟨line, level, hdescribe, hlevel⟩ := exists_describe hd
  have htakes : ¬log.takes level = true := by
    rw [← reaches_eq hlevel, hreaches]
    exact Bool.false_ne_true
  rw [logDiagnostic, Work.run_ofOutcome_bind hdescribe]
  dsimp only
  rw [logLine, logEvent, if_neg htakes, if_neg htakes]
  rfl

/-- **Logging a diagnostic** adds its entry and its record, if it reaches the level of the log. -/
theorem run_logDiagnostic (hopen : log.IsOpen w.files) (hd : d.IsSerialised) :
    ∃ files, (log.logDiagnostic d).run w = (.ok (), { w with files }) ∧
      log.Logs [d] w.files files ∧ log.IsOpen files := by
  cases hreaches : log.reaches d with
  | true => exact run_logDiagnostic_of_reaches hopen hd hreaches
  | false =>
    exact ⟨w.files, run_logDiagnostic_of_not_reaches hd hreaches,
      .refl (List.filter_cons_of_neg (by simp [hreaches])), hopen⟩

/-- **Logging diagnostics one by one** adds what a batch adds. -/
theorem run_forM_logDiagnostic (hopen : log.IsOpen w.files) (hds : ∀ d ∈ ds, d.IsSerialised) :
    ∃ files, (ds.forM log.logDiagnostic).run w = (.ok (), { w with files }) ∧
      log.Logs ds w.files files := by
  induction ds generalizing w with
  | nil => exact ⟨w.files, rfl, .refl rfl⟩
  | cons d ds ih =>
    obtain ⟨hd, hds⟩ := List.forall_mem_cons.1 hds
    obtain ⟨files₁, hfirst, hlogs, hopen₁⟩ := run_logDiagnostic hopen hd
    obtain ⟨files₂, hrest, hlogs₂⟩ := ih (w := { w with files := files₁ }) hopen₁ hds
    refine ⟨files₂, ?_, hlogs.append hlogs₂⟩
    exact (Work.run_bind_of_eq_ok hfirst _).trans hrest

/-- **A batch is logged, and counted whether it is logged or not.**  What it returns is the number
of records it has added just if all its diagnostics reach the level of the log. -/
theorem logDiagnostics_logs (hopen : log.IsOpen w.files) (hds : ∀ d ∈ ds, d.IsSerialised) :
    ∃ files, (log.logDiagnostics ds).run w = (.ok ds.length, { w with files }) ∧
      log.Logs ds w.files files ∧
      (ds.length = (ds.filter log.reaches).length ↔ ∀ d ∈ ds, log.reaches d = true) := by
  obtain ⟨files, hrun, hlogs⟩ := run_forM_logDiagnostic hopen hds
  refine ⟨files, Work.run_bind_of_eq_ok hrun _, hlogs, ?_⟩
  rw [eq_comm, List.length_filter_eq_length_iff]

/-! ## A log of warnings -/

/-- A log that passes over notes. -/
def warningLog : DiagnosticLog where
  textFile := ⟨.here, ["diagnostics.log"]⟩
  recordFile := ⟨.here, ["diagnostics.jsonl"]⟩
  level := .warning
  now := "2026-03-02T00:00:00+00:00"

/-- A directory with a record that was left unfinished. -/
def unfinishedRecord : World where
  files := ⟨["logs"], [(["logs"], .directory), (["logs", "diagnostics.jsonl"], .file [0x7b])]⟩

/-- A note about a value of a page. -/
def aprilNote : Diagnostic where
  kind := .unknownValue
  summary := "'April' is not\na known possible value."
  source := "Month.md"
  range := some ⟨⟨9, 3⟩, ⟨9, 18⟩⟩
  severity := .note

/-- A diagnostic of a severity that has no level of its own. -/
def fatalJson : Json := .obj [("severity", .str "fatal"), ("summary", .str "Out of months.")]

theorem isSerialised_fatalJson : fatalJson.IsSerialised where
  ordinary := by decide
  severity := ⟨_, rfl⟩
  summary := ⟨_, rfl⟩
  source := ⟨none, rfl⟩
  range := ⟨.null, rfl, nofun⟩

/-- A note, a warning and a diagnostic of another severity. -/
def mixedBatch : List Json :=
  [aprilNote.toJson, { aprilNote with severity := .warning }.toJson, fatalJson]

/-- The note of the batch is counted and passed over. -/
theorem logDiagnostics_logs_mixedBatch :
    warningLog.IsOpen unfinishedRecord.files ∧ (∀ d ∈ mixedBatch, d.IsSerialised) ∧
      (∃ files, (warningLog.logDiagnostics mixedBatch).run unfinishedRecord =
        (.ok 3, { unfinishedRecord with files }) ∧
        warningLog.Logs mixedBatch unfinishedRecord.files files) ∧
      (mixedBatch.filter warningLog.reaches).length = 2 := by
  have hopen : warningLog.IsOpen unfinishedRecord.files :=
    ⟨by decide, by decide, by unfold HasTwoFiles; decide⟩
  have hds : ∀ d ∈ mixedBatch, d.IsSerialised := List.forall_mem_cons.2
    ⟨Diagnostic.isSerialised_toJson (by decide), List.forall_mem_cons.2
      ⟨Diagnostic.isSerialised_toJson (by decide), List.forall_mem_singleton.2
        isSerialised_fatalJson⟩⟩
  obtain ⟨files, hrun, hlogs, -⟩ := logDiagnostics_logs hopen hds
  exact ⟨hopen, hds, ⟨files, hrun, hlogs⟩, by decide⟩

/-- A batch of one note returns one and adds nothing. -/
theorem run_logDiagnostics_aprilNote :
    (warningLog.logDiagnostics [aprilNote.toJson]).run unfinishedRecord =
      (.ok 1, unfinishedRecord) := rfl

end DiagnosticLog
end ValueDocs
