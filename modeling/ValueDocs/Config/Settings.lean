import ValueDocs.Config.Values
import ValueDocs.Files.Access
import ValueDocs.Text.CaseMap.Upper
import ValueDocs.Yaml.Read
import ValueDocs.Yaml.Write

/-!
# Config/Settings — the settings of a project

A project keeps its settings in a file near its pages: those of the pass over values, those of the
diagnostic log, and a version.  Variables of the environment override some of them.  Loading mends
what is out of range and falls back to the defaults when the file cannot be used, each with a
warning.
-/

namespace ValueDocs

/-- What a run finds around it. -/
structure Environment where
  home : Path
  bindings : List (String × String) := []

/-- The value of a variable, unless it is empty. -/
def Environment.get? (env : Environment) (name : String) : Option String :=
  (env.bindings.lookup name).filter (· ≠ "")

/-- Where diagnostics are logged, and from which level on. -/
structure LogSettings where
  level : Level := .info
  directory : Json := .str "stage2"
  textName : Json := .str "diagnostics.log"
  jsonName : Json := .str "diagnostics.jsonl"
  deriving Inhabited

/-- The settings of a project. -/
structure Settings where
  version : Json := .str "0.3.0"
  values : ValuesConfig := {}
  logging : LogSettings := {}
  deriving Inhabited

namespace LogSettings

/-- The data tree of log settings. -/
def toJson (s : LogSettings) : Json :=
  .obj [("level", .str s.level.name), ("log_dir", s.directory), ("text_log", s.textName),
    ("json_log", s.jsonName)]

end LogSettings

/-- Settings whose log level is as given. -/
structure SettingsDraft where
  settings : Settings := {}
  level : Json := .str Level.info.name
  deriving Inhabited

namespace Settings

/-! ## Reading a file -/

/-- A part of the settings, if it is there. -/
def part? (j : Json) (name : String) : Outcome (Option Json) :=
  match j with
  | .obj fields => .ok (fields.lookup name)
  | .arr items => if items.contains (.str name) then .error .wrongType else .ok none
  | .str s => if Text.occurs name.toList s.toList then .error .wrongType else .ok none
  | _ => .error .wrongType

/-- The settings of the pass, if there is a part for them. -/
def readValues : Option Json → Attempt ValuesConfig
  | some j => ValuesConfig.ofJson j
  | none => pure {}

/-- The log settings, if there is a part for them, and the level as given. -/
def readLogging : Option Json → Outcome (LogSettings × Json)
  | some j => do
    let defaults : LogSettings := {}
    let level ← j.get "level" (.str defaults.level.name)
    let directory ← j.get "log_dir" defaults.directory
    let textName ← j.get "text_log" defaults.textName
    let jsonName ← j.get "json_log" defaults.jsonName
    return ({ directory, textName, jsonName }, level)
  | none => return ({}, .str Level.info.name)

/-- The settings in a data tree; absent parts take their defaults. -/
def ofJson (j : Json) : Attempt SettingsDraft := do
  let values ← readValues (← .ofOutcome (part? j "values"))
  .ofOutcome do
    let (logging, level) ← readLogging (← part? j "logging")
    let version ← j.get "version" (.str "0.3.0")
    return { settings := { version, values, logging }, level }

/-! ## Overrides and mending -/

/-- Whether the value of a variable means yes. -/
def isYes (s : String) : Bool :=
  ["true", "1", "yes"].contains (String.ofList (s.toList.map Char.toLower))

/-- The greatest distance a variable asks for; one that is no whole number is ignored. -/
def overrideDistance (env : Environment) (distance : Nat) : Logged Int :=
  match env.get? "DOCVAL_MAX_EDIT_DISTANCE" with
  | none => pure distance
  | some s =>
    match Text.integer s.toList with
    | .ok n => pure n
    | .error _ => do
      Logged.warn ("Ignoring non-integer DOCVAL_MAX_EDIT_DISTANCE='" ++ s ++ "'")
      return distance

/-- The level a setting names; any other setting is mended, if the warning can show it. -/
def readLevel (j : Json) : Attempt Level :=
  match Level.all.find? fun l => j == .str l.name with
  | some l => pure l
  | none => do
    let shown ← .ofOutcome j.shown
    Logged.warn ("Unknown log level '" ++ shown ++ "', defaulting to 'INFO'")
    return .info

/-- The settings of a draft with the overrides of the environment; every setting is mended. -/
def settle (env : Environment) (draft : SettingsDraft) : Attempt Settings := do
  let { settings, level } := draft
  let suggestion := settings.values.suggestion
  let distance ← overrideDistance env suggestion.maxEditDistance
  let tieBreak := (env.get? "DOCVAL_TIE_BREAK").getD suggestion.tieBreak.name
  let caseSensitive :=
    ((env.get? "DOCVAL_CASE_SENSITIVE").map isYes).getD settings.values.caseSensitive
  let level := ((env.get? "DOCVAL_LOG_LEVEL").map fun s =>
    .str (String.ofList (Text.CaseMap.upper s.toList))).getD level
  let directory := ((env.get? "DOCVAL_LOG_DIR").map .str).getD settings.logging.directory
  let maxEditDistance ← SuggestionPolicy.readDistance distance
  let tieBreak ← TieBreak.read (.str tieBreak)
  let level ← readLevel level
  return { settings with
    values := { settings.values with suggestion := { maxEditDistance, tieBreak }, caseSensitive }
    logging := { settings.logging with level, directory } }

/-! ## Loading -/

/-- Whether loading falls back to the defaults after a failure. -/
def isRecoverable (f : Failure) : Bool :=
  match f.kind with
  | .malformedYaml | .undecodable | .badValue | .wrongType | .noMember => true
  | kind => kind.isSystem

/-- The settings of what a file holds, if there is a file; the defaults take the place of a file
that cannot be used. -/
def ofFile (env : Environment) (file : Option (Outcome Json)) : Attempt Settings := do
  let draft ← match file with
    | none => pure {}
    | some tree =>
      tryCatch
        (do
          let j ← .ofOutcome tree
          ofJson (if j.truthy then j else .obj []))
        fun f => do
          if !isRecoverable f then throw f
          Logged.warn "Failed to load config"
          return {}
  settle env draft

/-- What the settings file at a path holds. -/
def readFile (files : FileTree) (path : Path) : Outcome Json := do
  Yaml.parse (← files.readText path)

/-- The places a settings file may stand, for a run in a directory: first in the nearest ten
directories upward, then at home. -/
def candidates (home start : Path) : List Path :=
  let upward := start.ancestors.reverse.take 10
  (upward.flatMap fun p => [p / "docval.yaml", p / ".docval/docval.yaml"]) ++
    [home / ".config/docval/docval.yaml"]

/-- The nearest settings file. -/
def find? (files : FileTree) (home start : Path) : Outcome (Option Path) := do
  (candidates home (← files.resolve start)).findM? files.pathExists

/-- The path of the settings file of a run; without a path the nearest file holds the settings. -/
def locate (files : FileTree) (env : Environment) (path : Option Path) :
    Outcome (Option Path) := do
  match path with
  | some p => return if ← files.pathExists p then some p else none
  | none => find? files env.home .here

/-- The settings of a run. -/
def load (files : FileTree) (env : Environment) (path : Option Path) : Attempt Settings := do
  let found ← .ofOutcome (locate files env path)
  ofFile env (found.map (readFile files))

/-- The settings of a session, which are loaded when they are first asked for. -/
def current (kept : Option Settings) (files : FileTree) (env : Environment) : Attempt Settings :=
  match kept with
  | some s => pure s
  | none => load files env none

/-! ## Saving -/

/-- The data tree of settings. -/
def toJson (s : Settings) : Outcome Json := do
  return .obj [("version", s.version), ("values", ← s.values.toJson),
    ("logging", s.logging.toJson)]

/-- The files with the data tree of settings saved at a path. -/
def saveTree (tree : Json) (files : FileTree) (path : Path) : Outcome FileTree := do
  let files ← files.withDirectories path.parent
  files.withText path (← Yaml.written tree)

/-- The files with settings saved at a path. -/
def save (s : Settings) (files : FileTree) (path : Path) : Outcome FileTree := do
  saveTree (← s.toJson) files path

end Settings

/-- The data tree of a draft, with its level as given. -/
def SettingsDraft.toJson (d : SettingsDraft) : Outcome Json := do
  let logging := d.settings.logging
  return .obj [("version", d.settings.version), ("values", ← d.settings.values.toJson),
    ("logging", .obj [("level", d.level), ("log_dir", logging.directory),
      ("text_log", logging.textName), ("json_log", logging.jsonName)])]

end ValueDocs
