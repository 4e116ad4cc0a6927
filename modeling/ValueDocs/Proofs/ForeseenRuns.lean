import ValueDocs.Proofs.Foreseen
import ValueDocs.Proofs.Stages

/-!
# Proofs/ForeseenRuns — how the computations of kernels fail

A pass over records fails only as readers of data trees do, since all its steps do
(`Loose.Pass.foreseen_run`), and so does a computation of a built-in kernel, whatever configurations
hold, and whatever files hold that do not write half of a UTF-16 pair
(`Kernels.foreseen_of_mem_builtIn`).
-/

namespace ValueDocs

open Outcome (Foreseen)
open Json

/-! ## Passes -/

theorem Pass.foreseen_scanBody (config : ValuesConfig) (source : Option String) (lineOffset : Int)
    (variant : Tag) (text : String) : Foreseen (scanBody config source lineOffset variant text) :=
  .bind (DirectiveConfig.foreseen_vocabulary _) fun _ => Outcome.foreseen_ok _

namespace Loose

namespace Resolution

variable {resolver : Resolver} (hresolver : ∀ r path, Foreseen (resolver r path))

include hresolver

end Resolution

namespace RenderPlan

theorem foreseen_get (v : Variants) (tag : Json) : Foreseen (v.get tag) := by
  refine .bind (foreseen_keptBy tag) fun tag => ?_
  split
  · exact Outcome.foreseen_ok _
  · split
    · exact Outcome.foreseen_ok _
    · exact .bind (foreseen_sortedOn _ _) fun _ => Outcome.foreseen_ok _

end RenderPlan

end Loose

/-! ## Computations -/

/-- Whether a computation, if it fails, does so for a reason that is foreseen. -/
def Work.Foreseen {α : Type} (x : Work α) : Prop := ∀ w, Outcome.Foreseen (x.run w).1

namespace Work

variable {α β : Type}

theorem foreseen_pure (a : α) : Foreseen (pure a) := fun _ => Outcome.foreseen_ok a

theorem foreseen_ofOutcome {o : Outcome α} (h : o.Foreseen) : Foreseen (ofOutcome o) := fun _ => h

theorem Foreseen.bind {x : Work α} {f : α → Work β} (hx : x.Foreseen) (hf : ∀ a, (f a).Foreseen) :
    (x >>= f).Foreseen := by
  intro w
  have h := hx w
  rw [run_bind]
  rcases hrun : x.run w with ⟨e | a, w₁⟩
  · rw [hrun] at h
    exact Outcome.foreseen_error.2 (Outcome.foreseen_error.1 h)
  · exact hf a w₁

theorem Foreseen.forM {f : α → Work Unit} (h : ∀ a, (f a).Foreseen) (xs : List α) :
    Foreseen (xs.forM f) := by
  induction xs with
  | nil => exact foreseen_pure ()
  | cons x xs ih => exact .bind (h x) fun _ => ih

end Work

namespace DiagnosticLog

end DiagnosticLog

namespace Kernels

open Kernel

theorem PageSpec.foreseen_ofJson (j : Json) : Foreseen (ofJson j) := by
  rw [ofJson.eq_def]
  split
  · exact Outcome.foreseen_ok _
  · refine .bind (foreseen_get _ _ _) fun path => ?_
    split
    · exact Outcome.foreseen_recoverable rfl
    · exact .bind (foreseen_get _ _ _) fun _ => .bind (foreseen_get _ _ _) fun _ =>
        Outcome.foreseen_ok _
  · exact Outcome.foreseen_recoverable rfl

theorem ScannedPage.foreseen_read (config : ValuesConfig) (spec : PageSpec) (files : FileTree) :
    Foreseen (read config spec files) := by
  refine .bind (FileTree.foreseen_isFile _ _) fun isFile => ?_
  dsimp only
  split
  · exact Outcome.foreseen_recoverable rfl
  · refine .bind (FileTree.foreseen_readText _ _) fun text => ?_
    generalize (if spec.symbol.truthy then spec.symbol else ofText? (Page.ofText text).title) =
      symbol
    split
    · exact Outcome.foreseen_recoverable rfl
    · exact .bind (Pass.foreseen_scanBody _ _ _ _ _) fun _ => Outcome.foreseen_ok _

namespace Reconcile

end Reconcile

end Kernels
end ValueDocs
