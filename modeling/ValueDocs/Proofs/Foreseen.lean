import ValueDocs.Proofs.Work
import ValueDocs.Registry

/-!
# Proofs/Foreseen — how readers of files and data trees fail

A kernel recovers from most failures and puts them out.  Whatever files and data trees hold, there
are only two others that reading them can end in: something has no member of a name, or a whole
number is wanted of an infinity.  A file that writes half of a UTF-16 pair is left out, since there
is no such text here (`FileTree.HasWholePairs`).

The class of these failures is closed under all that readers are made of, so each reader of files
and data trees stays in it because its parts do.
-/

namespace ValueDocs

/-- Whether a failure is one that a kernel recovers from, or one of the two that it does not but
that reading data can end in. -/
def Failure.IsForeseen (f : Failure) : Prop :=
  f.isRecoverable = true ∨ f = .noMember ∨ f = .infinite

/-! ## Outcomes -/

namespace Outcome

variable {α β : Type}

/-- Whether a result, if there is none, fails to be for a reason that is foreseen. -/
def Foreseen (x : Outcome α) : Prop := ∀ f, x = .error f → f.IsForeseen

theorem foreseen_ok (a : α) : Foreseen (.ok a) := nofun

theorem foreseen_error {f : Failure} : Foreseen (.error f : Outcome α) ↔ f.IsForeseen :=
  ⟨fun h => h f rfl, fun h _ hf => Except.error.inj hf ▸ h⟩

theorem foreseen_recoverable {f : Failure} (h : f.isRecoverable = true) :
    Foreseen (.error f : Outcome α) := foreseen_error.2 (.inl h)

theorem foreseen_noMember : Foreseen (.error .noMember : Outcome α) :=
  foreseen_error.2 (.inr (.inl rfl))

theorem Foreseen.bind {x : Outcome α} {f : α → Outcome β} (hx : x.Foreseen)
    (hf : ∀ a, (f a).Foreseen) : (x >>= f).Foreseen := by
  cases x with
  | error e => exact foreseen_error.2 (foreseen_error.1 hx)
  | ok a => exact hf a

theorem Foreseen.map {x : Outcome α} (f : α → β) (hx : x.Foreseen) : (f <$> x).Foreseen := by
  cases x with
  | error e => exact foreseen_error.2 (foreseen_error.1 hx)
  | ok a => exact foreseen_ok _

theorem Foreseen.mapM {f : α → Outcome β} {xs : List α} (h : ∀ x ∈ xs, (f x).Foreseen) :
    (xs.mapM f).Foreseen := by
  induction xs with
  | nil => exact foreseen_ok _
  | cons x xs ih =>
    rw [List.mapM_cons]
    refine .bind (h x (List.mem_cons_self ..)) fun y => ?_
    exact .bind (ih fun x hx => h x (List.mem_cons_of_mem _ hx)) fun ys => foreseen_ok _

theorem Foreseen.foldlM {f : β → α → Outcome β} {xs : List α} (h : ∀ b, ∀ x ∈ xs, (f b x).Foreseen)
    (b : β) : (xs.foldlM f b).Foreseen := by
  induction xs generalizing b with
  | nil => exact foreseen_ok _
  | cons x xs ih =>
    rw [List.foldlM_cons]
    exact .bind (h b x (List.mem_cons_self ..)) fun b' =>
      ih (fun b x hx => h b x (List.mem_cons_of_mem _ hx)) b'

theorem Foreseen.findM? {f : α → Outcome Bool} (h : ∀ x, (f x).Foreseen) (xs : List α) :
    Foreseen (xs.findM? f) := by
  induction xs with
  | nil => exact foreseen_ok _
  | cons x xs ih =>
    refine .bind (h x) fun found => ?_
    cases found with
    | true => exact foreseen_ok _
    | false => exact ih

theorem foreseen_mapError {ε : Type} {f : ε → Failure} (h : ∀ e, (f e).IsForeseen)
    (x : Except ε α) : Foreseen (x.mapError f) := by
  cases x with
  | error e => exact foreseen_error.2 (h e)
  | ok a => exact foreseen_ok a

theorem Foreseen.mapError {g : Failure → Failure} {x : Outcome α}
    (hg : ∀ f, f.IsForeseen → (g f).IsForeseen) (hx : x.Foreseen) :
    Foreseen (Except.mapError g x) := by
  cases x with
  | error e => exact foreseen_error.2 (hg e (foreseen_error.1 hx))
  | ok a => exact foreseen_ok a

end Outcome

open Outcome (Foreseen)

/-! ## Data trees -/

namespace Json

theorem foreseen_field (name : String) (j : Json) : Foreseen (j.field name) := by
  rw [field.eq_def]
  split
  · split
    · exact Outcome.foreseen_ok _
    · exact Outcome.foreseen_recoverable rfl
  · exact Outcome.foreseen_recoverable rfl

theorem foreseen_get (j : Json) (name : String) (default : Json) :
    Foreseen (j.get name default) := by
  refine .bind ?_ fun _ => Outcome.foreseen_ok _
  cases j with
  | obj fields => exact Outcome.foreseen_ok _
  | _ => exact Outcome.foreseen_noMember

theorem foreseen_elements (j : Json) : Foreseen j.elements := by
  cases j <;> first | exact Outcome.foreseen_ok _ | exact Outcome.foreseen_recoverable rfl

theorem foreseen_keptBy (j : Json) : Foreseen j.keptBy := by
  cases j <;> first | exact Outcome.foreseen_ok _ | exact Outcome.foreseen_recoverable rfl

theorem foreseen_sortedOn {α : Type} (key : α → Json) (xs : List α) :
    Foreseen (sortedOn key xs) := by
  rw [sortedOn]
  split
  · exact Outcome.foreseen_ok _
  · exact Outcome.foreseen_recoverable rfl

theorem foreseen_mapElements {α : Type} {decode : Json → Outcome α}
    (h : ∀ j, Foreseen (decode j)) (j : Json) : Foreseen (j.mapElements decode) :=
  .bind (foreseen_elements j) fun _ => .mapM fun item _ => h item

end Json

/-- A required field is read, and something else after it. -/
theorem Outcome.Foreseen.field {α β : Type} {name : String} {j : Json} {decode : Json → Outcome α}
    {f : α → Outcome β} (h : ∀ j, Foreseen (decode j)) (hf : ∀ a, Foreseen (f a)) :
    Foreseen (j.field name >>= fun v => decode v >>= f) :=
  .bind (Json.foreseen_field name j) fun v => .bind (h v) hf

/-- An optional field is read, and something else after it. -/
theorem Outcome.Foreseen.get {α β : Type} {name : String} {j default : Json}
    {decode : Json → Outcome α} {f : α → Outcome β} (h : ∀ j, Foreseen (decode j))
    (hf : ∀ a, Foreseen (f a)) : Foreseen (j.get name default >>= fun v => decode v >>= f) :=
  .bind (Json.foreseen_get j name default) fun v => .bind (h v) hf

open Json

/-! ## Records -/

theorem foreseen_ofName {α : Type} (set : String) (members : List α) (name : α → String)
    (j : Json) : Foreseen (ofName set members name j) := by
  rw [ofName]
  split
  · exact Outcome.foreseen_ok _
  · exact Outcome.foreseen_recoverable rfl

namespace Loose

theorem Place.foreseen_ofJson (j : Json) : Foreseen (ofJson j) :=
  .bind (foreseen_field _ _) fun _ => .bind (foreseen_field _ _) fun _ => Outcome.foreseen_ok _

theorem Span.foreseen_get? (j : Json) (name : String) : Foreseen (get? j name) := by
  refine .bind (foreseen_get _ _ _) fun part => ?_
  rw [ofJson?]
  split
  · exact .field Place.foreseen_ofJson fun _ => .field Place.foreseen_ofJson fun _ =>
      Outcome.foreseen_ok _
  · exact Outcome.foreseen_ok _

theorem foreseen_itemsOf {α : Type} {decode : Json → Outcome α} (h : ∀ j, Foreseen (decode j))
    (j : Json) (name : String) : Foreseen (itemsOf decode j name) :=
  .bind (foreseen_get _ _ _) (foreseen_mapElements h)

theorem Segment.foreseen_ofJson (j : Json) : Foreseen (ofJson j) :=
  .field (foreseen_ofName _ _ _) fun _ => .bind (foreseen_field _ _) fun _ =>
    .bind (foreseen_get _ _ _) fun _ => Outcome.foreseen_ok _

theorem Block.foreseen_ofJson (j : Json) : Foreseen (ofJson j) :=
  .field (foreseen_ofName _ _ _) fun _ => .bind (foreseen_field _ _) fun _ =>
    .bind (Span.foreseen_get? _ _) fun _ => .bind (foreseen_itemsOf Outcome.foreseen_ok _ _) fun _ =>
    .bind (foreseen_itemsOf Segment.foreseen_ofJson _ _) fun _ => .bind (foreseen_get _ _ _) fun _ =>
    Outcome.foreseen_ok _

theorem DocumentedValue.foreseen_ofJson (j : Json) : Foreseen (ofJson j) :=
  .bind (foreseen_field _ _) fun _ => .bind (foreseen_get _ _ _) fun _ =>
    .bind (foreseen_itemsOf Block.foreseen_ofJson _ _) fun _ =>
    .bind (Span.foreseen_get? _ _) fun _ => .bind (Span.foreseen_get? _ _) fun _ =>
    .bind (Span.foreseen_get? _ _) fun _ => .bind (foreseen_itemsOf Outcome.foreseen_ok _ _) fun _ =>
    .bind (foreseen_get _ _ _) fun _ => .bind (foreseen_get _ _ _) fun _ => Outcome.foreseen_ok _

theorem DeclaredValue.foreseen_ofJson (j : Json) : Foreseen (ofJson j) :=
  .bind (foreseen_field _ _) fun _ => .bind (foreseen_field _ _) fun _ => Outcome.foreseen_ok _

end Loose

theorem Symbol.foreseen_ofJson (module j : Json) : Foreseen (ofJson module j) := by
  refine .bind (foreseen_get _ _ _) fun title => ?_
  dsimp only
  split
  · exact Outcome.foreseen_recoverable rfl
  · exact .bind (foreseen_get _ _ _) fun _ => Outcome.foreseen_ok _

theorem Catalog.foreseen_ofJson (j : Json) : Foreseen (ofJson j) :=
  .bind (foreseen_get _ _ _) fun module =>
    .get (foreseen_mapElements (Symbol.foreseen_ofJson module)) fun _ =>
    .get foreseen_elements fun _ => Outcome.foreseen_ok _

/-- Whether an attempt, if it fails, does so for a reason that is foreseen. -/
def Attempt.Foreseen {α : Type} (a : Attempt α) : Prop :=
  ∀ log, Outcome.Foreseen (StateT.run (ExceptT.run a) log).1

namespace Attempt

variable {α β : Type}

theorem foreseen_ofOutcome {o : Outcome α} (h : o.Foreseen) : Foreseen (ofOutcome o) := fun _ => h

theorem foreseen_lift (x : Logged α) : Foreseen (liftM x : Attempt α) :=
  fun _ => Outcome.foreseen_ok _

theorem Foreseen.bind {a : Attempt α} {f : α → Attempt β} (ha : a.Foreseen)
    (hf : ∀ x, (f x).Foreseen) : (a >>= f).Foreseen := by
  intro log
  have ha : Outcome.Foreseen (a log).1 := ha log
  change Outcome.Foreseen (ExceptT.bindCont f (a log).1 (a log).2).1
  cases h : (a log).1 with
  | error e => exact Outcome.foreseen_error.2 (ha e h)
  | ok x => exact hf x (a log).2

end Attempt

theorem Json.foreseen_toWhole (j : Json) : Foreseen j.toWhole := by
  rw [Json.toWhole.eq_def]
  split
  all_goals try exact Outcome.foreseen_ok _
  · exact Outcome.foreseen_error.2 (.inr (.inr rfl))
  · exact Outcome.foreseen_recoverable rfl
  · refine Outcome.foreseen_mapError (fun e => ?_) _
    cases e <;> exact .inl rfl
  · exact Outcome.foreseen_recoverable rfl

theorem Json.foreseen_shown (j : Json) : Foreseen j.shown := by
  rw [shown]
  split
  · exact Outcome.foreseen_ok _
  · exact Outcome.foreseen_recoverable rfl

theorem SuggestionPolicy.foreseen_readDistance (n : Int) : Attempt.Foreseen (readDistance n) := by
  rw [readDistance]
  split
  · exact .bind (Attempt.foreseen_ofOutcome (Json.foreseen_shown _)) fun _ =>
      .bind (Attempt.foreseen_lift _) fun _ => Attempt.foreseen_ofOutcome (Outcome.foreseen_ok _)
  · exact Attempt.foreseen_ofOutcome (Outcome.foreseen_ok _)

theorem TieBreak.foreseen_read (j : Json) : Attempt.Foreseen (read j) := by
  rw [read]
  split
  · exact Attempt.foreseen_ofOutcome (Outcome.foreseen_ok _)
  · exact .bind (Attempt.foreseen_ofOutcome (Json.foreseen_shown _)) fun _ =>
      .bind (Attempt.foreseen_lift _) fun _ => Attempt.foreseen_ofOutcome (Outcome.foreseen_ok _)

theorem WorkerLimit.foreseen_ofJson (j : Json) : Foreseen (ofJson j) := by
  cases j <;> first | exact Outcome.foreseen_ok _ | exact Outcome.foreseen_recoverable rfl

theorem ValuesConfig.foreseen_ofJson (j : Json) : Attempt.Foreseen (ofJson j) := by
  refine .bind (Attempt.foreseen_ofOutcome (foreseen_get _ _ _)) fun suggestion => ?_
  refine .bind (Attempt.foreseen_ofOutcome (foreseen_get _ _ _)) fun matching => ?_
  refine .bind (Attempt.foreseen_ofOutcome (foreseen_get _ _ _)) fun directives => ?_
  refine .bind (Attempt.foreseen_ofOutcome
    (.bind (foreseen_get _ _ _) Json.foreseen_toWhole)) fun distance => ?_
  refine .bind (Attempt.foreseen_ofOutcome (foreseen_get _ _ _)) fun tieBreak => ?_
  refine .bind (SuggestionPolicy.foreseen_readDistance _) fun distance => ?_
  refine .bind (TieBreak.foreseen_read _) fun tieBreak => ?_
  refine Attempt.foreseen_ofOutcome ?_
  exact .bind (foreseen_get _ _ _) fun _ => .bind (foreseen_get _ _ _) fun _ =>
    .bind (foreseen_get _ _ _) fun _ => .get WorkerLimit.foreseen_ofJson fun _ =>
    Outcome.foreseen_ok _

theorem DirectiveConfig.foreseen_texts (setting : Json) : Foreseen (texts setting) := by
  refine .bind (foreseen_elements setting) fun items => .mapM fun item _ => ?_
  split
  · exact Outcome.foreseen_ok _
  · exact Outcome.foreseen_noMember

theorem DirectiveConfig.foreseen_vocabulary (c : DirectiveConfig) : Foreseen c.vocabulary :=
  .bind (foreseen_texts _) fun _ => .bind (foreseen_texts _) fun _ => Outcome.foreseen_ok _

/-! ## Files -/

namespace FileTree

variable {α : Type}

theorem foreseen_outcomeAt (p : Path) (result : Except FileFault α) :
    Foreseen (outcomeAt p result) :=
  Outcome.foreseen_mapError (fun fault => .inl (by cases fault <;> rfl)) result

theorem foreseen_isFile (t : FileTree) (p : Path) : Foreseen (t.isFile p) := by
  refine .bind (foreseen_outcomeAt p _) fun node => ?_
  split <;> exact Outcome.foreseen_ok _

theorem foreseen_readText (t : FileTree) (p : Path) : Foreseen (t.readText p) :=
  .bind (foreseen_outcomeAt p _) fun _ =>
    .bind (Outcome.foreseen_mapError (fun _ => .inl rfl) _) fun _ => Outcome.foreseen_ok _

end FileTree
end ValueDocs
