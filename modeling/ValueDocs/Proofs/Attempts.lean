import ValueDocs.Proofs.Work

/-!
# Proofs/Attempts — what an attempt ends in

An attempt ends in a failure or in a result.  What is known of both is carried from step to step: a
step that fails ends the attempt, and from a result the next step starts (`Attempt.Ends.bind`).  An
attempt that reads none of the messages written before it is steady: it ends the same way after all
of them, so runs can be told without their messages (`Attempt.fst_run_bind`).
-/

namespace ValueDocs

variable {α β : Type} {fails : Failure → Prop}

/-! ## Outcomes -/

namespace Outcome

/-- What is known of an outcome: of the failure, or else of the result. -/
def Ends (o : Outcome α) (fails : Failure → Prop) (gives : α → Prop) : Prop :=
  match o with
  | .error f => fails f
  | .ok a => gives a

variable {o : Outcome α} {given : α → Prop} {gives : β → Prop}

theorem Ends.bind {f : α → Outcome β} (ho : o.Ends fails given)
    (hf : ∀ a, given a → (f a).Ends fails gives) : (o >>= f).Ends fails gives := by
  cases o with
  | error e => exact ho
  | ok a => exact hf a ho

theorem Ends.fails_mono {fails' : Failure → Prop} (ho : o.Ends fails given)
    (hfails : ∀ f, fails f → fails' f) : o.Ends fails' given := by
  cases o with
  | error e => exact hfails e ho
  | ok a => exact ho

theorem Ends.gives_mono {given' : α → Prop} (ho : o.Ends fails given)
    (hgives : ∀ a, given a → given' a) : o.Ends fails given' := by
  cases o with
  | error e => exact ho
  | ok a => exact hgives a ho

end Outcome

/-! ## Attempts -/

namespace Attempt

/-- What is known of how an attempt ends, whatever was written before it. -/
def Ends (a : Attempt α) (fails : Failure → Prop) (gives : α → Prop) : Prop :=
  ∀ log, Outcome.Ends (a log).1 fails gives

/-- An attempt that ends the same way whatever was written before it. -/
def IsSteady (a : Attempt α) : Prop := ∀ log, (a log).1 = a.run.1

variable {a : Attempt α} {given : α → Prop} {gives : β → Prop}

theorem Ends.of_eq_ok {x : α} (h : a.Ends fails given) (hx : a.run.1 = .ok x) : given x := by
  have hrun : Outcome.Ends a.run.1 fails given := h []
  rw [hx] at hrun
  exact hrun

theorem Ends.of_eq_error {f : Failure} (h : a.Ends fails given) (hf : a.run.1 = .error f) :
    fails f := by
  have hrun : Outcome.Ends a.run.1 fails given := h []
  rw [hf] at hrun
  exact hrun

theorem ends_ofOutcome {o : Outcome α} (h : o.Ends fails given) :
    (ofOutcome o).Ends fails given := by
  intro log
  exact h

theorem ends_pure {x : α} (h : given x) : (pure x : Attempt α).Ends fails given := by
  intro log
  exact h

theorem ends_liftM {x : Logged α} (h : ∀ log, given (x log).1) :
    (liftM x : Attempt α).Ends fails given := by
  intro log
  exact h log

theorem Ends.fails_mono {fails' : Failure → Prop} (ha : a.Ends fails given)
    (hfails : ∀ f, fails f → fails' f) : a.Ends fails' given := by
  intro log
  exact (ha log).fails_mono hfails

theorem Ends.gives_mono {given' : α → Prop} (ha : a.Ends fails given)
    (hgives : ∀ x, given x → given' x) : a.Ends fails given' := by
  intro log
  exact (ha log).gives_mono hgives

/-- **One step, then the rest**: what a step gives is what the rest may rely on. -/
theorem Ends.bind {f : α → Attempt β} (ha : a.Ends fails given)
    (hf : ∀ x, given x → (f x).Ends fails gives) : (a >>= f).Ends fails gives := by
  intro log
  have hstep := ha log
  change Outcome.Ends (ExceptT.bindCont f (a log).1 (a log).2).1 fails gives
  cases h : (a log).1 with
  | error e =>
    rw [h] at hstep
    exact hstep
  | ok x =>
    rw [h] at hstep
    exact hf x hstep (a log).2

/-- A setting that is shown in a warning and mended. -/
theorem ends_mend {j : Json} {x : α} {message : String → String}
    (hfails : j.isWritable = false → fails .unwritable) (hgiven : j.isWritable = true → given x) :
    Ends (do
      let shown ← ofOutcome j.shown
      Logged.warn (message shown)
      return x) fails given := by
  have hshown : (ofOutcome j.shown).Ends fails fun _ => j.isWritable = true := by
    refine ends_ofOutcome ?_
    rw [Json.shown]
    split
    next h => exact h
    next h => exact hfails (by simpa using h)
  refine hshown.bind fun shown h => ?_
  exact (ends_liftM fun _ => h).bind fun _ h => ends_pure (hgiven h)

theorem isSteady_ofOutcome (o : Outcome α) : (ofOutcome o).IsSteady := fun _ => rfl

theorem isSteady_pure (x : α) : (pure x : Attempt α).IsSteady := fun _ => rfl

theorem isSteady_liftM {x : Logged α} (h : ∀ log, (x log).1 = (x []).1) :
    (liftM x : Attempt α).IsSteady := by
  intro log
  exact congrArg Except.ok (h log)

theorem IsSteady.bind {f : α → Attempt β} (ha : a.IsSteady) (hf : ∀ x, (f x).IsSteady) :
    (a >>= f).IsSteady := by
  intro log
  change (ExceptT.bindCont f (a log).1 (a log).2).1 = (ExceptT.bindCont f a.run.1 a.run.2).1
  rw [ha log]
  cases a.run.1 with
  | error e => rfl
  | ok x => exact (hf x _).trans (hf x _).symm

theorem isSteady_mend {j : Json} {x : α} {message : String → String} :
    IsSteady (do
      let shown ← ofOutcome j.shown
      Logged.warn (message shown)
      return x) :=
  (isSteady_ofOutcome _).bind fun _ => (isSteady_liftM fun _ => rfl).bind fun _ => isSteady_pure x

theorem fst_run_bind {f : α → Attempt β} (hf : ∀ x, (f x).IsSteady) :
    (a >>= f).run.1 = a.run.1 >>= fun x => (f x).run.1 := by
  change (ExceptT.bindCont f a.run.1 a.run.2).1 = _
  cases a.run.1 with
  | error e => rfl
  | ok x => exact hf x a.run.2

theorem fst_run_tryCatch {handle : Failure → Attempt α} (hhandle : ∀ f, (handle f).IsSteady) :
    (tryCatch a handle).run.1 = tryCatch a.run.1 fun f => (handle f).run.1 := by
  have hrun : a.run = a [] := rfl
  rw [hrun]
  rcases h : a [] with ⟨_ | _, log⟩
  all_goals
    simp only [run, tryCatch, tryCatchThe, MonadExceptOf.tryCatch, ExceptT.tryCatch, ExceptT.run,
      StateT.run, ExceptT.mk, bind, StateT.bind, h]
  · exact hhandle _ log
  · rfl

end Attempt
end ValueDocs
