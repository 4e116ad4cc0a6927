import ValueDocs.Proofs.Files.Writing
import ValueDocs.Proofs.LoadedSettings
import ValueDocs.Proofs.Records
import ValueDocs.Proofs.SettingsSearch
import ValueDocs.Proofs.Yaml.Plain

/-!
# Proofs/SavedSettings — settings that are saved are loaded again

Settings are saved as a data tree in a file, and loading goes the way back: the file is read as
text, the text as a tree, and each setting is taken from its place in the tree.  Settings in range
pass each of the checks on this way as they are (`Settings.run_ofJson_toJson`,
`Settings.run_settle`), and the file is read as it was written, whatever characters the settings
have (`Yaml.arePlain_write`).

So loading gives the settings that were saved, and has nothing to tell of, provided that the
notation of the file holds their tree (`Settings.load_save`).
-/

namespace ValueDocs

/-- Whether a tree is written in a file that holds this tree. -/
def Yaml.ReadsBack (j : Json) : Prop := (do parse (← written j).toList) = .ok j

/-- The variables that override settings. -/
def Environment.overrides : List String :=
  ["DOCVAL_MAX_EDIT_DISTANCE", "DOCVAL_TIE_BREAK", "DOCVAL_CASE_SENSITIVE", "DOCVAL_LOG_LEVEL",
    "DOCVAL_LOG_DIR"]

/-- Whether no variable overrides a setting. -/
def Environment.IsSilent (env : Environment) : Prop := ∀ name ∈ overrides, env.get? name = none

instance (env : Environment) : Decidable env.IsSilent :=
  inferInstanceAs (Decidable (∀ name ∈ Environment.overrides, env.get? name = none))

/-- Whether a file can be written at a path once the directories above it are made. -/
def FileTree.TakesNewFile (files : FileTree) (path : Path) : Prop :=
  ∃ made, files.withDirectories path.parent = .ok made ∧ made.takesFile path = true

namespace Settings

/-- **What saving and loading come to**: settings are saved where a file can be written, and are
loaded as they were saved, without a message. -/
structure IsKept (s : Settings) (env : Environment) (files : FileTree) (path : Path) : Prop where
  saves_iff : (∃ files', s.save files path = .ok files') ↔ files.TakesNewFile path
  loads : ∀ files', s.save files path = .ok files' →
    (load files' env (some path)).run = (.ok s, [])

variable {s : Settings} {env : Environment} {files files' : FileTree} {path : Path} {tree : Json}

/-! ## From the tree to the settings -/

open Attempt

/-- Settings in range have a tree. -/
theorem exists_toJson (hs : s.IsValid) : ∃ tree, s.toJson = .ok tree := by
  obtain ⟨blockTexts, hblock⟩ := hs.block
  obtain ⟨inlineTexts, hinline⟩ := hs.inline
  rw [toJson, ValuesConfig.toJson, hblock, hinline]
  exact ⟨_, rfl⟩

/-- A whole number of workers is read back. -/
theorem ofJson_toJson_maxWorkers (hs : s.IsValid) (hworkers : ∃ n, s.values.maxWorkers = .whole n) :
    WorkerLimit.ofJson s.values.maxWorkers.toJson = .ok s.values.maxWorkers := by
  obtain ⟨n, hn⟩ := hworkers
  have hpositive : 1 ≤ n := by simpa [hn, WorkerLimit.IsPositive] using hs.workers
  rw [hn, WorkerLimit.toJson, WorkerLimit.ofJson, Int.toNat_natCast, Nat.max_eq_right hpositive]

/-- The settings of the pass are read back. -/
theorem run_readValues (hs : s.IsValid) (hworkers : ∃ n, s.values.maxWorkers = .whole n)
    (htree : s.values.toJson = .ok tree) : (readValues (some tree)).run = (.ok s.values, []) := by
  obtain ⟨block, inline, limit, hblock, hinline, hlimit, hrun⟩ :=
    ValuesConfig.run_ofJson_toJson htree
  obtain ⟨blockTexts, hblockTexts⟩ := hs.block
  obtain ⟨inlineTexts, hinlineTexts⟩ := hs.inline
  rw [ofJson_toJson_maxWorkers hs hworkers] at hlimit
  rw [hblockTexts] at hblock
  rw [hinlineTexts] at hinline
  obtain rfl := Except.ok.inj hblock
  obtain rfl := Except.ok.inj hinline
  obtain rfl := Except.ok.inj hlimit
  have hdirectives : (⟨.ofTexts blockTexts, .ofTexts inlineTexts⟩ : DirectiveConfig) =
      s.values.directives := congrArg₂ DirectiveConfig.mk hblockTexts.symm hinlineTexts.symm
  exact hrun.trans (congrArg (fun directives =>
    ((.ok { s.values with directives } : Outcome ValuesConfig), ([] : List Message))) hdirectives)

/-- The draft that settings are read back as: their level is as given. -/
def toDraft (s : Settings) : SettingsDraft where
  settings := { s with logging := { s.logging with level := .info } }
  level := .str s.logging.level.name

/-- **Settings in range are read back from their tree.** -/
theorem run_ofJson_toJson (hs : s.IsValid) (hworkers : ∃ n, s.values.maxWorkers = .whole n)
    (htree : s.toJson = .ok tree) : (ofJson tree).run = (.ok s.toDraft, []) := by
  obtain ⟨values, hvalues, htree⟩ := Outcome.bind_eq_ok_iff.1 htree
  obtain rfl := Except.ok.inj htree
  have hpart : part? (.obj [("version", s.version), ("values", values),
      ("logging", s.logging.toJson)]) "values" = .ok (some values) := rfl
  rw [ofJson, run_ofOutcome_bind hpart, run_bind_of_eq_ok (run_readValues hs hworkers hvalues)]
  rfl

/-! ## Mending -/

/-- A level is read back from its name. -/
theorem readLevel_name (l : Level) : readLevel (.str l.name) = pure l := by
  cases l <;> rfl

/-- **Settings in range stay as they are** where no variable overrides them. -/
theorem run_settle (henv : env.IsSilent) (s : Settings) :
    (settle env s.toDraft).run = (.ok s, []) := by
  have hdistance := henv "DOCVAL_MAX_EDIT_DISTANCE" (by decide)
  have htieBreak := henv "DOCVAL_TIE_BREAK" (by decide)
  have hcase := henv "DOCVAL_CASE_SENSITIVE" (by decide)
  have hlevel := henv "DOCVAL_LOG_LEVEL" (by decide)
  have hdirectory := henv "DOCVAL_LOG_DIR" (by decide)
  simp only [settle, toDraft, overrideDistance, hdistance, htieBreak, hcase, hlevel, hdirectory,
    Option.map_none, Option.getD_none]
  rw [run_bind_of_eq_ok (x := liftM (pure _)) rfl,
    run_bind_of_eq_ok (congrArg run (SuggestionPolicy.readDistance_natCast _)),
    run_bind_of_eq_ok (congrArg run (TieBreak.read_name _)),
    run_bind_of_eq_ok (congrArg run (readLevel_name _))]
  rfl

/-- **A file that holds the tree of settings gives these settings**, and nothing is told of. -/
theorem run_ofFile (hs : s.IsValid) (hworkers : ∃ n, s.values.maxWorkers = .whole n)
    (htree : s.toJson = .ok tree) (henv : env.IsSilent) :
    (ofFile env (some (.ok tree))).run = (.ok s, []) := by
  have htruthy : tree.truthy = true := by
    obtain ⟨values, -, htree⟩ := Outcome.bind_eq_ok_iff.1 htree
    obtain rfl := Except.ok.inj htree
    rfl
  have hconvert : (convert (.ok tree)).run = (.ok s.toDraft, []) := by
    rw [convert, run_ofOutcome_bind rfl, if_pos htruthy]
    exact run_ofJson_toJson hs hworkers htree
  have hcaught : (tryCatch (convert (.ok tree)) fallBack).run = (.ok s.toDraft, []) :=
    run_tryCatch_of_eq_ok hconvert fallBack
  exact (run_bind_of_eq_ok hcaught _).trans (run_settle henv s)

/-! ## By way of a file -/

/-- The file of a tree that is saved has its text. -/
theorem exists_text_of_saveTree (h : saveTree tree files path = .ok files') :
    ∃ text, Yaml.written tree = .ok text ∧
      files'.readBytes path = .ok (Text.Utf8.encode text.toList) := by
  obtain ⟨made, -, h⟩ := Outcome.bind_eq_ok_iff.1 h
  obtain ⟨text, htext, h⟩ := Outcome.bind_eq_ok_iff.1 h
  obtain ⟨-, -, -, hread⟩ := FileTree.Frame.writeText (FileTree.outcomeAt_eq_ok_iff.1 h)
  exact ⟨text, htext, hread⟩

/-- **A tree is saved where a file can be written**, if it can be written at all. -/
theorem exists_saveTree_iff {text : String} (htext : Yaml.written tree = .ok text) :
    (∃ files', saveTree tree files path = .ok files') ↔ files.TakesNewFile path := by
  constructor
  · rintro ⟨files', h⟩
    obtain ⟨made, hmade, h⟩ := Outcome.bind_eq_ok_iff.1 h
    rw [htext] at h
    exact ⟨made, hmade, (FileTree.exists_writeText_iff text).1
      ⟨files', FileTree.outcomeAt_eq_ok_iff.1 h⟩⟩
  · rintro ⟨made, hmade, htakes⟩
    obtain ⟨files', hwrite⟩ := (FileTree.exists_writeText_iff text).2 htakes
    refine ⟨files', ?_⟩
    rw [saveTree, hmade, htext]
    exact FileTree.outcomeAt_eq_ok_iff.2 hwrite

/-- A path that is given is that of the settings once they are saved there. -/
theorem locate_of_saveTree (h : saveTree tree files path = .ok files') (env : Environment) :
    locate files' env (some path) = .ok (some path) := by
  obtain ⟨text, -, hread⟩ := exists_text_of_saveTree h
  obtain ⟨place, hplace, hnode⟩ := FileTree.readBytes_eq_ok_iff.1 hread
  have hat : files'.at? path = .ok (some (.file (Text.Utf8.encode text.toList))) := by
    rw [FileTree.at?, hplace]
    exact congrArg Except.ok hnode
  rw [locate, FileTree.pathExists_eq_ok_iff.2 ⟨_, hat, rfl⟩]
  rfl

/-- **A tree that is saved is what its file holds**, if the notation holds the tree. -/
theorem readFile_of_saveTree (hback : Yaml.ReadsBack tree)
    (h : saveTree tree files path = .ok files') : readFile files' path = .ok tree := by
  obtain ⟨text, htext, hread⟩ := exists_text_of_saveTree h
  have hplain : Text.ArePlain text.toList := by
    rw [Yaml.written] at htext
    split at htext
    · exact Except.ok.inj htext ▸ Yaml.arePlain_write tree
    · cases htext
  rw [readFile, FileTree.readText_eq_of_readBytes hplain hread]
  rw [Yaml.ReadsBack, htext] at hback
  exact hback

/-- **Settings that are saved are loaded again.** -/
theorem load_save (hs : s.IsValid) (hworkers : ∃ n, s.values.maxWorkers = .whole n)
    (hback : ∀ tree, s.toJson = .ok tree → Yaml.ReadsBack tree) (henv : env.IsSilent)
    (files : FileTree) (path : Path) : s.IsKept env files path := by
  obtain ⟨tree, htree⟩ := exists_toJson hs
  obtain ⟨text, htext, -⟩ := Outcome.bind_eq_ok_iff.1 (hback tree htree)
  have hsave : s.save files path = saveTree tree files path := by
    rw [save, htree]
    rfl
  refine ⟨by rw [hsave]; exact exists_saveTree_iff htext, fun files' hfiles => ?_⟩
  rw [hsave] at hfiles
  rw [run_load (locate_of_saveTree hfiles env), Option.map_some,
    readFile_of_saveTree (hback tree htree) hfiles]
  exact run_ofFile hs hworkers htree henv

/-- Settings with texts that a settings file could take for something else. -/
def ambiguousTexts : Settings where
  version := .str "1"
  values := { directives := ⟨.ofTexts ["- é"], .ofTexts []⟩, maxWorkers := .whole 2 }
  logging :=
    { level := .error, directory := .str "#\n", textName := .str "null", jsonName := .str "" }

/-- An environment where a variable is set to nothing. -/
def emptyTieBreak : Environment where
  home := .here
  bindings := [("DOCVAL_TIE_BREAK", "")]

/-- Such settings are saved in a directory that is made for them, and loaded again. -/
theorem load_save_ambiguousTexts :
    ambiguousTexts.IsValid ∧ (∃ n, ambiguousTexts.values.maxWorkers = .whole n) ∧
    (∀ tree, ambiguousTexts.toJson = .ok tree → Yaml.ReadsBack tree) ∧ emptyTieBreak.IsSilent ∧
    ∃ files', ambiguousTexts.save ⟨[], []⟩ (.ofParts ["new", "docval.yaml"]) = .ok files' ∧
      (load files' emptyTieBreak (some (.ofParts ["new", "docval.yaml"]))).run =
        (.ok ambiguousTexts, []) := by
  have hs : ambiguousTexts.IsValid :=
    ⟨by decide, by decide, (by decide : 1 ≤ 2), by decide, ⟨_, rfl⟩, ⟨_, rfl⟩⟩
  have hback : ∀ tree, ambiguousTexts.toJson = .ok tree → Yaml.ReadsBack tree := by
    intro tree htree
    obtain rfl := Except.ok.inj htree
    exact Outcome.eq_ok_of_toOption (by decide +kernel)
  have henv : emptyTieBreak.IsSilent := by decide
  have hkept := load_save hs ⟨2, rfl⟩ hback henv ⟨[], []⟩ (.ofParts ["new", "docval.yaml"])
  obtain ⟨files', hsave⟩ := hkept.saves_iff.2 ⟨_, rfl, by decide +kernel⟩
  exact ⟨hs, ⟨2, rfl⟩, hback, henv, files', hsave, hkept.loads files' hsave⟩

end Settings
end ValueDocs
