/-!
# Text/CaseMap — case maps as runs of shifted code points

A case map changes few characters, and those lie in runs that all move by one distance: the
capital Latin letters move by 32, and many scripts alternate capital and small letters, a run of
step two.  A table of such runs is the whole map; everything outside the runs stays.
-/

namespace ValueDocs.Text.CaseMap

/-- The code points `first`, `first + step`, …, `last`, each moved by `shift`. -/
structure CaseRun where
  first : Nat
  last : Nat
  step : Nat
  shift : Int

/-- Where a run sends a code point, if the point belongs to it. -/
def CaseRun.image? (run : CaseRun) (n : Nat) : Option Nat :=
  if run.first ≤ n && n ≤ run.last && (n - run.first) % run.step == 0 then
    some (n + run.shift).toNat
  else none

/-- The one-character image of `c` under a table of runs. -/
def applyRuns (runs : List CaseRun) (c : Char) : Char :=
  match runs.findSome? (·.image? c.toNat) with
  | some n => Char.ofNat n
  | none => c

/-- The image of `c` under a table of runs and a table of longer images. -/
def applyFull (runs : List CaseRun) (specials : List (Nat × List Nat)) (c : Char) : List Char :=
  match specials.lookup c.toNat with
  | some image => image.map Char.ofNat
  | none => [applyRuns runs c]

end ValueDocs.Text.CaseMap
