import ValueDocs.Proofs.Outcome
import ValueDocs.World

/-!
# Proofs/Work — what a computation on the state of a run says about its steps

A computation that gives a result did so at each of its steps, each in the state that the step before
it left.
-/

namespace ValueDocs

variable {α β : Type} {w w' : World}

/-! ## Attempts -/

namespace Attempt

@[simp] theorem run_ofOutcome (o : Outcome α) : (ofOutcome o).run = (o, []) := rfl

/-- What an attempt does after a step that gives a result and writes nothing. -/
theorem run_bind_of_eq_ok {x : Attempt α} {a : α} (h : x.run = (.ok a, []))
    (f : α → Attempt β) : (x >>= f).run = (f a).run := by
  change ExceptT.bindCont f x.run.1 x.run.2 = _
  rw [h]
  rfl

theorem run_ofOutcome_bind {o : Outcome α} {a : α} (h : o = .ok a) (f : α → Attempt β) :
    (ofOutcome o >>= f).run = (f a).run :=
  run_bind_of_eq_ok (by rw [run_ofOutcome, h]) f

/-- A step that gives a result has nothing to catch. -/
theorem run_tryCatch_of_eq_ok {x : Attempt α} {a : α} {messages : List Message}
    (h : x.run = (.ok a, messages)) (handle : Failure → Attempt α) :
    (tryCatch x handle).run = (.ok a, messages) := by
  have hrun : x [] = (.ok a, messages) := h
  simp only [run, tryCatch, tryCatchThe, MonadExceptOf.tryCatch, ExceptT.tryCatch, ExceptT.run,
    StateT.run, ExceptT.mk, bind, StateT.bind, hrun]
  rfl

end Attempt

/-! ## Work on the state of a run -/

namespace Work

@[simp] theorem run_ofOutcome (o : Outcome α) (w : World) : (ofOutcome o).run w = (o, w) := rfl

@[simp] theorem run_files (w : World) : files.run w = (.ok w.files, w) := rfl

theorem run_bind (x : Work α) (f : α → Work β) (w : World) :
    (x >>= f).run w = match x.run w with
      | (.ok a, w₁) => (f a).run w₁
      | (.error e, w₁) => (.error e, w₁) := by
  change ExceptT.bindCont f (x.run w).1 (x.run w).2 = _
  rcases x.run w with ⟨_ | _, _⟩ <;> rfl

theorem run_bind_eq_ok_iff {x : Work α} {f : α → Work β} {b : β} :
    (x >>= f).run w = (.ok b, w') ↔ ∃ a w₁, x.run w = (.ok a, w₁) ∧ (f a).run w₁ = (.ok b, w') := by
  rw [run_bind]
  rcases x.run w with ⟨_ | a, w₁⟩
  · exact ⟨nofun, fun ⟨_, _, h, _⟩ => nomatch h⟩
  · constructor
    · exact fun h => ⟨a, w₁, rfl, h⟩
    · rintro ⟨_, _, ⟨⟩, h⟩
      exact h

theorem run_bind_of_eq_ok {x : Work α} {a : α} {w₁ : World} (h : x.run w = (.ok a, w₁))
    (f : α → Work β) : (x >>= f).run w = (f a).run w₁ := by
  rw [run_bind, h]

/-- Two computations do the same if their first steps do, and what follows each result. -/
theorem run_bind_congr {x y : Work α} {f g : α → Work β} (h : x.run w = y.run w)
    (hrest : ∀ a w₁, x.run w = (.ok a, w₁) → (f a).run w₁ = (g a).run w₁) :
    (x >>= f).run w = (y >>= g).run w := by
  rw [run_bind, run_bind, ← h]
  rcases hx : x.run w with ⟨_ | a, w₁⟩
  · rfl
  · exact hrest a w₁ hx

theorem run_ofOutcome_eq_ok_iff {o : Outcome α} {a : α} :
    (ofOutcome o).run w = (.ok a, w') ↔ o = .ok a ∧ w = w' := by
  rw [run_ofOutcome, Prod.mk.injEq]

theorem run_ofOutcome_bind {o : Outcome α} {a : α} (h : o = .ok a) (f : α → Work β) :
    (ofOutcome o >>= f).run w = (f a).run w :=
  run_bind_of_eq_ok (run_ofOutcome_eq_ok_iff.2 ⟨h, rfl⟩) f

/-- What follows an outcome starts from the same state. -/
theorem run_ofOutcome_bind_eq_ok_iff {o : Outcome α} {f : α → Work β} {b : β} :
    (ofOutcome o >>= f).run w = (.ok b, w') ↔ ∃ a, o = .ok a ∧ (f a).run w = (.ok b, w') := by
  rw [run_bind_eq_ok_iff]
  constructor
  · rintro ⟨a, w₁, hof, hrest⟩
    obtain ⟨ho, rfl⟩ := run_ofOutcome_eq_ok_iff.1 hof
    exact ⟨a, ho, hrest⟩
  · rintro ⟨a, ho, hrest⟩
    exact ⟨a, w, run_ofOutcome_eq_ok_iff.2 ⟨ho, rfl⟩, hrest⟩

/-- A change of the files leaves all else as it is. -/
theorem run_change_eq_ok_iff {f : FileTree → Outcome FileTree} {u : Unit} :
    (change f).run w = (.ok u, w') ↔
      ∃ files, f w.files = .ok files ∧ w' = { w with files } := by
  rw [change, run_bind_of_eq_ok (run_files w), run_ofOutcome_bind_eq_ok_iff]
  refine exists_congr fun files => and_congr_right fun _ => ?_
  exact ⟨fun hmodify => (Prod.mk.inj hmodify).2.symm, fun h => h ▸ rfl⟩

/-- An attempt that gives a result writes messages and changes nothing else. -/
theorem run_ofAttempt_eq_ok_iff {a : Attempt α} {x : α} :
    (ofAttempt a).run w = (.ok x, w') ↔
      a.run.1 = .ok x ∧ w' = { w with log := w.log ++ a.run.2 } := by
  change (a.run.1, { w with log := w.log ++ a.run.2 }) = (.ok x, w') ↔ _
  rw [Prod.mk.injEq]
  exact and_congr_right fun _ => eq_comm

/-- What is observed is what happens. -/
theorem run_observe (x : Work α) (w : World) :
    (observe x).run w = (.ok (x.run w).1, (x.run w).2) := by
  have hrun : x.run w = x w := rfl
  rw [hrun]
  rcases h : x w with ⟨_ | _, _⟩ <;>
    simp only [observe, run, tryCatch, tryCatchThe, MonadExceptOf.tryCatch, ExceptT.tryCatch,
      ExceptT.run, StateT.run, ExceptT.mk, bind, StateT.bind, Functor.map, ExceptT.map, h] <;>
    rfl

end Work
end ValueDocs
