import ValueDocs.Config.Settings
import ValueDocs.Proofs.Attempts
import ValueDocs.Proofs.Text.Numerals

/-!
# Proofs/LoadedSettings — what loading the settings of a project ends in

A settings file may hold any tree, and variables may override some of it.  Loading falls back to the
defaults where the file cannot be read or its tree does not convert, but for two causes: an infinite
distance, and a log level that the warning about it cannot show.  The settings that are loaded are
in range, except that keywords are kept as given (`Settings.ofFile_isLoading`).

Conversion reads the tree step by step, so what it ends in is told by what stands in the tree at a
few paths.
-/

namespace ValueDocs

/-! ## What stands in a tree -/

namespace Json

/-- What stands in a tree under the names of a path. -/
def at? : (path : List String) → Json → Option Json
  | [], j => some j
  | name :: path, .obj fields => (fields.lookup name).bind (at? path)
  | _ :: _, _ => none

/-- Whether a tree asks for an infinity at a path. -/
def AsksInfinity (j : Json) (path : List String) : Prop :=
  ∃ negative, j.at? path = some (.float (.infinite negative))

/-- Whether a tree has only lists of texts at a path, if anything. -/
def HasTexts (j : Json) (path : List String) : Prop :=
  ∀ setting, j.at? path = some setting → ∃ texts, setting = .ofTexts texts

end Json

/-- Whether a limit admits a worker. -/
def WorkerLimit.IsPositive : WorkerLimit → Prop
  | .whole n => 1 ≤ n
  | .fractional (.finite negative m e) =>
    negative = false ∧ (Binary64.ratio m e).2 ≤ (Binary64.ratio m e).1
  | .fractional (.infinite negative) => negative = false
  | .fractional .notANumber => False

/-! ## The specification -/

namespace Settings

/-- The draft that a file gives, if it can be read and its tree converts. -/
def convert (tree : Outcome Json) : Attempt SettingsDraft := do
  let j ← .ofOutcome tree
  ofJson (if j.truthy then j else .obj [])

/-- Whether a file can be read and its tree converts. -/
def Converts (tree : Outcome Json) : Prop := ∃ draft, (convert tree).run.1 = .ok draft

/-- Whether a tree sets a log level that no variable replaces and no warning can show. -/
def HasUnshownLevel (env : Environment) (j : Json) : Prop :=
  env.get? "DOCVAL_LOG_LEVEL" = none ∧
    ∃ level, j.at? ["logging", "level"] = some level ∧ level.isWritable = false

/-- Whether settings are in range. -/
structure IsValid (s : Settings) : Prop where
  distance : 0 ≤ (s.values.suggestion.maxEditDistance : Int)
  tieBreak : s.values.suggestion.tieBreak.name ∈ ["none", "declaration_order", "alphabetical"]
  workers : s.values.maxWorkers.IsPositive
  level : s.logging.level.name ∈ ["DEBUG", "INFO", "WARNING", "ERROR"]
  block : ∃ keywords, s.values.directives.blockKeywords = .ofTexts keywords
  inline : ∃ keywords, s.values.directives.inlineKeywords = .ofTexts keywords

/-- **What loading settings ends in**, for the variables of an environment and what a file holds. -/
structure IsLoading (env : Environment) (file : Option (Outcome Json)) : Prop where
  /-- Two causes make loading fail. -/
  fails_iff : (∃ f, (ofFile env file).run.1 = .error f) ↔ ∃ j, file = some (.ok j) ∧
    (j.AsksInfinity ["values", "suggestion", "max_edit_distance"] ∨
      Converts (.ok j) ∧ HasUnshownLevel env j)
  /-- Settings are in range but for keywords that a tree gives as something else than texts. -/
  valid_iff : ∀ s, (ofFile env file).run.1 = .ok s → (s.IsValid ↔
    ∀ j, file = some (.ok j) → Converts (.ok j) →
      j.HasTexts ["values", "directives", "block_keywords"] ∧
        j.HasTexts ["values", "directives", "inline_keywords"])
  /-- A file that is not read or does not convert is as good as none. -/
  fallback : ∀ tree s, file = some tree → ¬Converts tree →
    (ofFile env file).run.1 = .ok s → (ofFile env none).run.1 = .ok s

end Settings

/-! ## Paths -/

namespace Json

theorem at?_of_not_isObj {j : Json} (h : j.isObj = false) (name : String) (path : List String) :
    j.at? (name :: path) = none := by
  cases j with
  | obj fields => cases h
  | _ => rfl

/-- An empty tree has nothing under any name. -/
theorem at?_truthy (j : Json) (name : String) (path : List String) :
    (if j.truthy then j else .obj []).at? (name :: path) = j.at? (name :: path) := by
  split
  · rfl
  next h =>
    cases j with
    | obj fields =>
      obtain rfl : fields = [] := by simpa [truthy] using h
      rfl
    | _ => rfl

/-- A path goes on from what stands under its first name. -/
theorem at?_bind (j : Json) (name other : String) (path : List String) :
    (j.at? [name]).bind (at? (other :: path)) = j.at? (name :: other :: path) := by
  cases j with
  | obj fields =>
    rw [at?, at?]
    cases fields.lookup name <;> rfl
  | _ => rfl

theorem at?_getD (j : Json) (name other : String) (path : List String) :
    ((j.at? [name]).getD (.obj [])).at? (other :: path) = j.at? (name :: other :: path) := by
  rw [← at?_bind]
  cases j.at? [name] <;> rfl

theorem asksInfinity_congr {j k : Json} {path path' : List String}
    (h : j.at? path = k.at? path') : j.AsksInfinity path = k.AsksInfinity path' := by
  rw [AsksInfinity, h, AsksInfinity]

theorem not_asksInfinity_of_not_isObj {j : Json} (h : j.isObj = false) (name : String)
    (path : List String) : ¬j.AsksInfinity (name :: path) := by
  rintro ⟨negative, hasks⟩
  rw [at?_of_not_isObj h] at hasks
  cases hasks

theorem hasTexts_iff {j : Json} {path defaults : List String} : j.HasTexts path ↔
    ∃ texts, (j.at? path).getD (.ofTexts defaults) = .ofTexts texts := by
  rw [HasTexts]
  cases j.at? path with
  | none => exact ⟨fun _ => ⟨defaults, rfl⟩, fun _ => nofun⟩
  | some setting => exact ⟨fun h => h setting rfl, fun h _ hsetting => Option.some.inj hsetting ▸ h⟩

theorem ends_get (j : Json) (name : String) (default : Json) :
    (j.get name default).Ends (fun f => f = .noMember ∧ j.isObj = false) fun v =>
      v = (j.at? [name]).getD default := by
  cases j with
  | obj fields =>
    change (fields.lookup name).getD default = ((fields.lookup name).bind some).getD default
    cases fields.lookup name <;> rfl
  | _ => exact ⟨rfl, rfl⟩

end Json

/-! ## Conversion -/

/-- How reading a tree fails: where it asks for an infinity because of that, and otherwise for a
reason that loading recovers from. -/
def FailsFor (asks : Prop) (f : Failure) : Prop :=
  asks ∧ f = .infinite ∨ ¬asks ∧ Settings.isRecoverable f = true

theorem FailsFor.of_not {asks : Prop} {f : Failure} (h : ¬asks)
    (hf : Settings.isRecoverable f = true) : FailsFor asks f := .inr ⟨h, hf⟩

/-- A field of a tree is read; a tree that has no fields asks for nothing. -/
theorem Json.ends_get_failsFor {j : Json} {asks : Prop} (hasks : j.isObj = false → ¬asks)
    (name : String) (default : Json) :
    (j.get name default).Ends (FailsFor asks) fun v => v = (j.at? [name]).getD default :=
  (j.ends_get name default).fails_mono fun _ ⟨hf, hobj⟩ => .of_not (hasks hobj) (hf ▸ rfl)

/-- **A setting is a whole number unless it is an infinity, or something loading recovers from.** -/
theorem Json.ends_toWhole (j : Json) : j.toWhole.Ends
    (FailsFor (∃ negative, j = .float (.infinite negative))) fun _ =>
      ¬∃ negative, j = .float (.infinite negative) := by
  cases j with
  | float x =>
    cases x with
    | finite negative m e => exact nofun
    | infinite negative => exact .inl ⟨⟨negative, rfl⟩, rfl⟩
    | notANumber => exact .of_not nofun rfl
  | str s =>
    change Outcome.Ends (Except.mapError _ (Text.integer s.toList)) _ _
    cases Text.integer s.toList with
    | ok n => exact nofun
    | error fault => cases fault <;> exact .of_not nofun rfl
  | int n => exact nofun
  | bool b => exact nofun
  | _ => exact .of_not nofun rfl

theorem Json.ends_get_toWhole (j : Json) (name : String) (n : Int) :
    (j.get name (.int n) >>= toWhole).Ends (FailsFor (j.AsksInfinity [name])) fun _ =>
      ¬j.AsksInfinity [name] := by
  refine (ends_get_failsFor (not_asksInfinity_of_not_isObj · name []) _ _).bind fun setting hs => ?_
  have hasks : j.AsksInfinity [name] ↔ ∃ negative, setting = .float (.infinite negative) := by
    rw [AsksInfinity, hs]
    cases j.at? [name] <;> simp
  rw [hasks]
  exact setting.ends_toWhole

/-- A number of workers is at least one. -/
theorem WorkerLimit.ends_ofJson (j : Json) : (ofJson j).Ends
    (fun f => Settings.isRecoverable f = true) IsPositive := by
  cases j with
  | int n => exact Nat.le_max_left ..
  | bool b => exact Nat.le_refl 1
  | float x =>
    change IsPositive (if x.exceedsOne then _ else _)
    split
    next h =>
      rcases x with ⟨_ | _, m, e⟩ | ⟨_ | _⟩ | _
      · exact ⟨rfl, Nat.le_of_lt (by simpa [Binary64.exceedsOne] using h)⟩
      · cases h
      · rfl
      · cases h
      · cases h
    · exact Nat.le_refl 1
  | _ => rfl

namespace SuggestionPolicy

theorem ends_readDistance (n : Int) : (readDistance n).Ends
    (fun f => f = .unwritable ∧ n < 0 ∧ (Json.int n).isWritable = false) fun _ => True := by
  rw [readDistance]
  split
  next h => exact Attempt.ends_mend (fun hn => ⟨rfl, h, hn⟩) fun _ => trivial
  · exact Attempt.ends_pure trivial

end SuggestionPolicy

theorem TieBreak.ends_read (j : Json) : (read j).Ends
    (fun f => f = .unwritable ∧ j.isWritable = false) fun _ => True := by
  rw [read]
  split
  · exact Attempt.ends_pure trivial
  · exact Attempt.ends_mend (fun hj => ⟨rfl, hj⟩) fun _ => trivial

/-- What the settings of a pass are, for the tree they are in. -/
structure ValuesConfig.IsOf (j : Json) (c : ValuesConfig) : Prop where
  finite : ¬j.AsksInfinity ["suggestion", "max_edit_distance"]
  block : c.directives.blockKeywords = (j.at? ["directives", "block_keywords"]).getD
    (.ofTexts ["PossibleValues", "Possible Values"])
  inline : c.directives.inlineKeywords = (j.at? ["directives", "inline_keywords"]).getD
    (.ofTexts ["PossibleValue", "Possible Value"])
  workers : c.maxWorkers.IsPositive

theorem ValuesConfig.ends_ofJson (j : Json) : (ofJson j).Ends
    (FailsFor (j.AsksInfinity ["suggestion", "max_edit_distance"])) (IsOf j) := by
  have hat (name : String) (path : List String) := Json.at?_truthy j name path
  rw [ofJson]
  dsimp only
  generalize (if j.truthy then j else .obj []) = tree at hat ⊢
  have hobj (h : tree.isObj = false) : ¬j.AsksInfinity ["suggestion", "max_edit_distance"] := by
    rw [← Json.asksInfinity_congr (hat ..)]
    exact Json.not_asksInfinity_of_not_isObj h _ _
  refine .bind (Attempt.ends_ofOutcome (Json.ends_get_failsFor hobj _ _)) fun suggestion hs => ?_
  refine .bind (Attempt.ends_ofOutcome (Json.ends_get_failsFor hobj _ _)) fun matching _ => ?_
  refine .bind (Attempt.ends_ofOutcome (Json.ends_get_failsFor hobj _ _)) fun directives hd => ?_
  have hasks : suggestion.AsksInfinity ["max_edit_distance"] =
      j.AsksInfinity ["suggestion", "max_edit_distance"] :=
    Json.asksInfinity_congr (by rw [hs, Json.at?_getD, hat])
  have hdirectives (name : String) : directives.at? [name] = j.at? ["directives", name] := by
    rw [hd, Json.at?_getD, hat]
  have hwhole := suggestion.ends_get_toWhole "max_edit_distance" 2
  rw [hasks] at hwhole
  refine .bind (Attempt.ends_ofOutcome hwhole) fun distance hfinite => ?_
  have hrecover (f : Failure) (hf : f = .unwritable) :
      FailsFor (j.AsksInfinity ["suggestion", "max_edit_distance"]) f := .of_not hfinite (hf ▸ rfl)
  -- from here on there is no infinity to be met
  have hget (v : Json) (name : String) (default : Json) :=
    v.ends_get_failsFor (fun _ => hfinite) name default
  refine .bind (Attempt.ends_ofOutcome (hget ..)) fun tieBreak _ => ?_
  refine .bind ((SuggestionPolicy.ends_readDistance _).fails_mono fun f hf => hrecover f hf.1)
    fun distance _ => ?_
  refine .bind ((TieBreak.ends_read _).fails_mono fun f hf => hrecover f hf.1)
    fun tieBreak _ => ?_
  refine Attempt.ends_ofOutcome ?_
  refine (hget _ _ _).bind fun caseSensitive _ => ?_
  refine (hget _ _ _).bind fun block hblock => (hget _ _ _).bind fun inline hinline => ?_
  refine (hget _ _ _).bind fun setting _ => ?_
  refine ((WorkerLimit.ends_ofJson setting).fails_mono fun f hf => .of_not hfinite hf).bind
    fun workers hworkers => ?_
  rw [hdirectives] at hblock hinline
  exact ⟨hfinite, hblock, hinline, hworkers⟩

namespace Settings

theorem ends_part? (j : Json) (name : String) : (part? j name).Ends
    (fun f => j.isObj = false ∧ isRecoverable f = true) fun v => v = j.at? [name] := by
  cases j with
  | obj fields =>
    change fields.lookup name = (fields.lookup name).bind some
    cases fields.lookup name <;> rfl
  | arr items =>
    rw [part?]
    split
    · exact ⟨rfl, rfl⟩
    · rfl
  | str s =>
    rw [part?]
    split
    · exact ⟨rfl, rfl⟩
    · rfl
  | _ => exact ⟨rfl, rfl⟩

/-- The settings of the pass are read from their part of the tree. -/
theorem ends_readValues (j : Json) : (readValues (j.at? ["values"])).Ends
    (FailsFor (j.AsksInfinity ["values", "suggestion", "max_edit_distance"]))
    (ValuesConfig.IsOf ((j.at? ["values"]).getD (.obj []))) := by
  rw [← Json.asksInfinity_congr (j.at?_getD "values" "suggestion" ["max_edit_distance"])]
  cases j.at? ["values"] with
  | some v => exact ValuesConfig.ends_ofJson v
  | none => exact Attempt.ends_pure ⟨nofun, rfl, rfl, Nat.le_add_left 1 3⟩

theorem ends_readLogging (part : Option Json) : (readLogging part).Ends
    (fun f => isRecoverable f = true) fun r =>
      r.2 = (part.bind (Json.at? ["level"])).getD (.str "INFO") := by
  cases part with
  | none => rfl
  | some j =>
    have hget (name : String) (default : Json) := (j.ends_get name default).fails_mono
      fun f hf => (hf.1 ▸ rfl : isRecoverable f = true)
    refine (hget _ _).bind fun level hlevel => ?_
    refine (hget _ _).bind fun directory _ => (hget _ _).bind fun textName _ => ?_
    exact (hget _ _).bind fun jsonName _ => hlevel

end Settings

/-- What a draft of settings is, for the tree it is in. -/
structure SettingsDraft.IsOf (j : Json) (d : SettingsDraft) : Prop where
  finite : ¬j.AsksInfinity ["values", "suggestion", "max_edit_distance"]
  block : d.settings.values.directives.blockKeywords =
    (j.at? ["values", "directives", "block_keywords"]).getD
      (.ofTexts ["PossibleValues", "Possible Values"])
  inline : d.settings.values.directives.inlineKeywords =
    (j.at? ["values", "directives", "inline_keywords"]).getD
      (.ofTexts ["PossibleValue", "Possible Value"])
  workers : d.settings.values.maxWorkers.IsPositive
  level : d.level = (j.at? ["logging", "level"]).getD (.str "INFO")

namespace Settings

theorem ends_ofJson (j : Json) : (ofJson j).Ends
    (FailsFor (j.AsksInfinity ["values", "suggestion", "max_edit_distance"]))
    (SettingsDraft.IsOf j) := by
  rw [ofJson]
  refine .bind (Attempt.ends_ofOutcome ((ends_part? j "values").fails_mono fun f hf => ?_))
    fun part hpart => ?_
  · exact .of_not (Json.not_asksInfinity_of_not_isObj hf.1 _ _) hf.2
  subst hpart
  refine .bind (ends_readValues j) fun values hvalues => ?_
  have hat (name : String) (path : List String) := j.at?_getD "values" name path
  have hfinite : ¬j.AsksInfinity ["values", "suggestion", "max_edit_distance"] := by
    rw [← Json.asksInfinity_congr (hat ..)]
    exact hvalues.finite
  refine Attempt.ends_ofOutcome ?_
  refine ((ends_part? j "logging").fails_mono fun f hf => .of_not hfinite hf.2).bind
    fun part hpart => ?_
  refine ((ends_readLogging part).fails_mono fun f hf => .of_not hfinite hf).bind
    fun (logging, level) hlevel => ?_
  refine ((j.ends_get "version" _).fails_mono fun f hf => .of_not hfinite (hf.1 ▸ rfl)).bind
    fun version _ => ?_
  refine ⟨hfinite, ?_, ?_, hvalues.workers, ?_⟩
  · rw [← hat]
    exact hvalues.block
  · rw [← hat]
    exact hvalues.inline
  · exact hlevel.trans (by rw [hpart, Json.at?_bind])

/-! ## Mending -/

theorem ends_overrideDistance (env : Environment) (distance : Nat) :
    (liftM (overrideDistance env distance) : Attempt Int).Ends (fun _ => False) fun n =>
      n < 0 → (Json.int n).isWritable = true := by
  have hgiven (h : (distance : Int) < 0) : (Json.int distance).isWritable = true :=
    absurd h (Int.not_lt.2 (Int.natCast_nonneg distance))
  rw [overrideDistance]
  split
  · exact Attempt.ends_liftM fun _ => hgiven
  · split
    next hn => exact Attempt.ends_liftM fun _ _ => Text.isWritable_of_integer hn
    · exact Attempt.ends_liftM fun _ => hgiven

theorem ends_readLevel (level : Json) : (readLevel level).Ends
    (fun _ => level.isWritable = false) fun _ => level.isWritable = true := by
  rw [readLevel]
  split
  next l hl =>
    have hlevel := List.find?_some hl
    obtain rfl : level = .str l.name := by simpa using hlevel
    exact Attempt.ends_pure rfl
  · exact Attempt.ends_mend id id

/-- **Mending a draft fails just for a level that no variable replaces and no warning can show**,
and leaves keywords and workers as they are. -/
theorem ends_settle (env : Environment) (draft : SettingsDraft) : (settle env draft).Ends
    (fun _ => env.get? "DOCVAL_LOG_LEVEL" = none ∧ draft.level.isWritable = false) fun s =>
      ¬(env.get? "DOCVAL_LOG_LEVEL" = none ∧ draft.level.isWritable = false) ∧
        s.values.directives = draft.settings.values.directives ∧
        s.values.maxWorkers = draft.settings.values.maxWorkers := by
  rw [settle]
  dsimp only
  refine .bind ((ends_overrideDistance _ _).fails_mono fun _ => False.elim)
    fun distance hdistance => ?_
  refine .bind ((SuggestionPolicy.ends_readDistance _).fails_mono fun _ hf => ?_)
    fun distance _ => ?_
  · exact absurd (hdistance hf.2.1) (by simp [hf.2.2])
  refine .bind ((TieBreak.ends_read _).fails_mono fun _ hf => nomatch hf.2)
    fun tieBreak _ => ?_
  cases hlevel : env.get? "DOCVAL_LOG_LEVEL" with
  | some s =>
    refine .bind ((ends_readLevel _).fails_mono fun _ hf => nomatch hf) fun level _ => ?_
    exact Attempt.ends_pure ⟨nofun, rfl, rfl⟩
  | none =>
    refine .bind ((ends_readLevel _).fails_mono fun _ hf => ⟨rfl, hf⟩) fun level hl => ?_
    exact Attempt.ends_pure ⟨fun h => absurd h.2 (by simpa using hl), rfl, rfl⟩

theorem isSteady_overrideDistance (env : Environment) (distance : Nat) :
    (liftM (overrideDistance env distance) : Attempt Int).IsSteady := by
  rw [overrideDistance]
  split
  · exact Attempt.isSteady_liftM fun _ => rfl
  · split <;> exact Attempt.isSteady_liftM fun _ => rfl

theorem isSteady_readDistance (n : Int) : (SuggestionPolicy.readDistance n).IsSteady := by
  rw [SuggestionPolicy.readDistance]
  split
  · exact Attempt.isSteady_mend
  · exact Attempt.isSteady_pure _

theorem isSteady_readTieBreak (j : Json) : (TieBreak.read j).IsSteady := by
  rw [TieBreak.read]
  split
  · exact Attempt.isSteady_pure _
  · exact Attempt.isSteady_mend

theorem isSteady_readLevel (level : Json) : (readLevel level).IsSteady := by
  rw [readLevel]
  split
  · exact Attempt.isSteady_pure _
  · exact Attempt.isSteady_mend

/-- What was written before a draft is mended does not matter. -/
theorem isSteady_settle (env : Environment) (draft : SettingsDraft) :
    (settle env draft).IsSteady := by
  rw [settle]
  dsimp only
  refine .bind (isSteady_overrideDistance _ _) fun distance => ?_
  refine .bind (isSteady_readDistance _) fun distance => ?_
  refine .bind (isSteady_readTieBreak _) fun tieBreak => ?_
  exact .bind (isSteady_readLevel _) fun level => Attempt.isSteady_pure _

/-! ## Loading -/

/-- What loading does after a failure: it falls back to the default draft, if it recovers at all. -/
def fallBack (f : Failure) : Attempt SettingsDraft := do
  if !isRecoverable f then throw f
  Logged.warn "Failed to load config"
  return {}

theorem isSteady_fallBack (f : Failure) : (fallBack f).IsSteady := by
  intro log
  rw [fallBack]
  cases isRecoverable f <;> rfl

theorem fst_run_fallBack (f : Failure) :
    (fallBack f).run.1 = if isRecoverable f then .ok {} else .error f := by
  rw [fallBack]
  cases isRecoverable f <;> rfl

/-- **Loading mends the draft of the file**, or the default draft after a failure. -/
theorem fst_run_ofFile_some (env : Environment) (tree : Outcome Json) :
    (ofFile env (some tree)).run.1 =
      tryCatch (convert tree).run.1 (fun f => (fallBack f).run.1) >>= fun draft =>
        (settle env draft).run.1 := by
  have hload : ofFile env (some tree) = tryCatch (convert tree) fallBack >>= settle env := rfl
  rw [hload, Attempt.fst_run_bind (isSteady_settle env),
    Attempt.fst_run_tryCatch isSteady_fallBack]

variable {env : Environment} {tree : Outcome Json}

theorem fst_run_ofFile_of_converts {draft : SettingsDraft} (h : (convert tree).run.1 = .ok draft) :
    (ofFile env (some tree)).run.1 = (settle env draft).run.1 := by
  rw [fst_run_ofFile_some, h]
  rfl

theorem fst_run_ofFile_of_error {f : Failure} (h : (convert tree).run.1 = .error f) :
    (ofFile env (some tree)).run.1 =
      if isRecoverable f then (ofFile env none).run.1 else .error f := by
  rw [fst_run_ofFile_some, h]
  change ((fallBack f).run.1 >>= fun draft => (settle env draft).run.1) = _
  rw [fst_run_fallBack]
  split <;> rfl

/-- Once the file is located, loading goes on from what it holds. -/
theorem run_load {files : FileTree} {path found : Option Path}
    (h : locate files env path = .ok found) :
    (load files env path).run = (ofFile env (found.map (readFile files))).run :=
  Attempt.run_ofOutcome_bind h _

theorem ends_convert (j : Json) : (convert (.ok j)).Ends
    (FailsFor (j.AsksInfinity ["values", "suggestion", "max_edit_distance"]))
    (SettingsDraft.IsOf j) := by
  have hat := Json.at?_truthy j
  have hasks := Json.asksInfinity_congr (hat "values" ["suggestion", "max_edit_distance"])
  have hdraft := ends_ofJson (if j.truthy then j else .obj [])
  rw [hasks] at hdraft
  refine hdraft.gives_mono fun d h => ?_
  exact ⟨hasks ▸ h.finite, hat .. ▸ h.block, hat .. ▸ h.inline, h.workers, hat .. ▸ h.level⟩

/-! ## Validity -/

/-- Settings are in range as soon as their keywords and their workers are. -/
theorem isValid_iff {s : Settings} (hworkers : s.values.maxWorkers.IsPositive) : s.IsValid ↔
    (∃ keywords, s.values.directives.blockKeywords = .ofTexts keywords) ∧
      ∃ keywords, s.values.directives.inlineKeywords = .ofTexts keywords := by
  constructor
  · intro h
    exact ⟨h.block, h.inline⟩
  · rintro ⟨hblock, hinline⟩
    refine ⟨Int.natCast_nonneg _, ?_, hworkers, ?_, hblock, hinline⟩
    · cases s.values.suggestion.tieBreak <;> decide
    · cases s.logging.level <;> decide

/-- The defaults are loaded where there is no file, and are in range. -/
theorem exists_default (env : Environment) :
    ∃ s, (ofFile env none).run.1 = .ok s ∧ s.IsValid := by
  have hends := ends_settle env {}
  change ∃ s, (settle env {}).run.1 = .ok s ∧ s.IsValid
  cases h : (settle env {}).run.1 with
  | error f => exact nomatch (hends.of_eq_error h).2
  | ok s =>
    obtain ⟨-, hdirectives, hworkers⟩ := hends.of_eq_ok h
    refine ⟨s, rfl, (isValid_iff (hworkers ▸ Nat.le_add_left 1 3)).2 ?_⟩
    rw [hdirectives]
    exact ⟨⟨_, rfl⟩, ⟨_, rfl⟩⟩

/-! ## The ways loading goes -/

/-- A file from which loading falls back to the defaults. -/
theorem isLoading_of_default {file : Option (Outcome Json)}
    (hdefault : (ofFile env file).run.1 = (ofFile env none).run.1)
    (hfile : ∀ j, file = some (.ok j) →
      ¬j.AsksInfinity ["values", "suggestion", "max_edit_distance"] ∧ ¬Converts (.ok j)) :
    IsLoading env file := by
  obtain ⟨s, hs, hvalid⟩ := exists_default env
  have hresult := hdefault.trans hs
  refine ⟨⟨?_, ?_⟩, ?_, ?_⟩
  · rintro ⟨f, hf⟩
    exact nomatch hf.symm.trans hresult
  · rintro ⟨j, hj, hasks | ⟨hconverts, -⟩⟩
    · exact absurd hasks (hfile j hj).1
    · exact absurd hconverts (hfile j hj).2
  · intro s' hs'
    obtain rfl := Except.ok.inj (hs'.symm.trans hresult)
    exact iff_of_true hvalid fun j hj hconverts => absurd hconverts (hfile j hj).2
  · intro _ s' _ _ hs'
    exact hdefault.symm.trans hs'

/-- A file whose tree converts. -/
theorem isLoading_of_draft {j : Json} {draft : SettingsDraft}
    (hdraft : (convert (.ok j)).run.1 = .ok draft) : IsLoading env (some (.ok j)) := by
  have hof := (ends_convert j).of_eq_ok hdraft
  have hends := ends_settle env draft
  have hconverts : Converts (.ok j) := ⟨draft, hdraft⟩
  have hlevel : (env.get? "DOCVAL_LOG_LEVEL" = none ∧ draft.level.isWritable = false) ↔
      HasUnshownLevel env j := by
    rw [HasUnshownLevel, hof.level]
    cases j.at? ["logging", "level"] <;> simp [Json.isWritable]
  have hresult : (ofFile env (some (.ok j))).run.1 = (settle env draft).run.1 :=
    fst_run_ofFile_of_converts hdraft
  refine ⟨⟨?_, ?_⟩, ?_, ?_⟩
  · rintro ⟨f, hf⟩
    exact ⟨j, rfl, .inr ⟨hconverts, hlevel.1 (hends.of_eq_error (hresult.symm.trans hf))⟩⟩
  · rintro ⟨_, ⟨⟩, hasks | ⟨-, hunshown⟩⟩
    · exact absurd hasks hof.finite
    · cases hsettle : (settle env draft).run.1 with
      | error f => exact ⟨f, hresult.trans hsettle⟩
      | ok s => exact absurd (hlevel.2 hunshown) (hends.of_eq_ok hsettle).1
  · intro s hs
    obtain ⟨-, hdirectives, hworkers⟩ := hends.of_eq_ok (hresult.symm.trans hs)
    rw [isValid_iff (hworkers ▸ hof.workers), hdirectives, hof.block, hof.inline,
      ← Json.hasTexts_iff, ← Json.hasTexts_iff]
    constructor
    · rintro h _ ⟨⟩ -
      exact h
    · intro h
      exact h j rfl hconverts
  · rintro tree s ⟨⟩ hnot
    exact absurd hconverts hnot

/-- A file whose tree asks for an infinite distance. -/
theorem isLoading_of_infinite {j : Json}
    (hasks : j.AsksInfinity ["values", "suggestion", "max_edit_distance"])
    (hfails : (convert (.ok j)).run.1 = .error .infinite) : IsLoading env (some (.ok j)) := by
  have hresult : (ofFile env (some (.ok j))).run.1 = .error .infinite :=
    fst_run_ofFile_of_error hfails
  refine ⟨iff_of_true ⟨_, hresult⟩ ⟨j, rfl, .inl hasks⟩, ?_, ?_⟩
  · intro s hs
    exact nomatch hs.symm.trans hresult
  · intro _ s _ _ hs
    exact nomatch hs.symm.trans hresult

/-- **Loading gives settings in range, or else it is known why not.**  The file may be absent, be
unreadable, write no tree or hold any tree, and every variable may have any value. -/
theorem ofFile_isLoading (env : Environment) {file : Option (Outcome Json)}
    (hfile : ∀ f, file = some (.error f) →
      f.kind = .malformedYaml ∨ f.kind = .undecodable ∨ f.kind.isSystem = true) :
    IsLoading env file := by
  rcases file with _ | f | j
  · exact isLoading_of_default rfl nofun
  · have hrecoverable : isRecoverable f = true := by
      rw [isRecoverable.eq_def]
      rcases hfile f rfl with hf | hf | hf
      · rw [hf]
      · rw [hf]
      · split <;> first | rfl | exact hf
    exact isLoading_of_default ((fst_run_ofFile_of_error rfl).trans (if_pos hrecoverable)) nofun
  · cases hconvert : (convert (.ok j)).run.1 with
    | ok draft => exact isLoading_of_draft hconvert
    | error f =>
      rcases (ends_convert j).of_eq_error hconvert with ⟨hasks, rfl⟩ | ⟨hfinite, hf⟩
      · exact isLoading_of_infinite hasks hconvert
      · refine isLoading_of_default ((fst_run_ofFile_of_error hconvert).trans (if_pos hf)) ?_
        rintro _ ⟨⟩
        exact ⟨hfinite, fun ⟨draft, hdraft⟩ => nomatch hdraft.symm.trans hconvert⟩

/-- An environment that settles ties by name. -/
def settlingTies : Environment where
  home := .here
  bindings := [("DOCVAL_TIE_BREAK", "alphabetical")]

/-- A malformed file leaves the defaults, with what the environment says. -/
theorem ofFile_isLoading_malformedFile :
    (∀ f, some (.error .malformedYaml) = some (.error f : Outcome Json) →
      f.kind = .malformedYaml ∨ f.kind = .undecodable ∨ f.kind.isSystem = true) ∧
    ∃ s, (ofFile settlingTies (some (.error .malformedYaml))).run.1 = .ok s ∧
      (ofFile settlingTies none).run.1 = .ok s ∧ s.IsValid ∧
      s.values.suggestion.tieBreak = .alphabetical := by
  have hfile : ∀ f, some (.error .malformedYaml) = some (.error f : Outcome Json) →
      f.kind = .malformedYaml ∨ f.kind = .undecodable ∨ f.kind.isSystem = true := by
    rintro _ ⟨⟩
    exact .inl rfl
  have hloading := ofFile_isLoading settlingTies hfile
  refine ⟨hfile, _, rfl, hloading.fallback _ _ rfl nofun rfl, ?_, rfl⟩
  exact (hloading.valid_iff _ rfl).2 nofun

/-- A file that asks for an infinite distance. -/
def infiniteDistance : Json :=
  .obj [("values", .obj [("suggestion", .obj [("max_edit_distance", .float (.infinite false))])])]

/-- A file with a number for the keywords. -/
def numericKeywords : Json :=
  .obj [("values", .obj [("directives", .obj [("block_keywords", .int 5)])])]

/-- Loading fails on the one file, and takes the keywords of the other as they are. -/
theorem not_loads_infiniteDistance :
    (ofFile settlingTies (some (.ok infiniteDistance))).run.1 = .error .infinite ∧
    ∃ s, (ofFile settlingTies (some (.ok numericKeywords))).run.1 = .ok s ∧ ¬s.IsValid :=
  ⟨rfl, _, rfl, fun h => nomatch h.block⟩

end Settings
end ValueDocs
