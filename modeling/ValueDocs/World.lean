import ValueDocs.Files.Access
import ValueDocs.Log

/-!
# World — what a run reads and changes

A run reads and writes files, writes messages to its reader and prints text.  All three are one
state, so a run that fails keeps what it did before it failed.
-/

namespace ValueDocs

/-- The state of a run. -/
structure World where
  files : FileTree
  log : List Message := []
  printed : String := ""

/-- A computation on the state of a run that may fail. -/
abbrev Work := ExceptT Failure (StateM World)

namespace Work

/-- The outcome, and the state after it. -/
def run (w : Work α) (world : World) : Outcome α × World := StateT.run (ExceptT.run w) world

/-- The result of an outcome. -/
def ofOutcome (o : Outcome α) : Work α := ExceptT.mk (pure o)

/-- The result of an attempt, whose messages are written. -/
def ofAttempt (a : Attempt α) : Work α :=
  ExceptT.mk fun world =>
    let (result, log) := a.run
    (result, { world with log := world.log ++ log })

/-- The files as they are. -/
def files : Work FileTree := return (← get).files

/-- Changes the files. -/
def change (f : FileTree → Outcome FileTree) : Work Unit := do
  let files ← ofOutcome (f (← files))
  modify fun world => { world with files }

/-- Writes a message. -/
def tell (m : Message) : Work Unit := modify fun world => { world with log := world.log ++ [m] }

/-- Prints a text. -/
def print (text : String) : Work Unit :=
  modify fun world => { world with printed := world.printed ++ text }

/-- Prints a line. -/
def printLine (text : String) : Work Unit := print (text ++ "\n")

/-- The outcome of a computation, for one that goes on after a failure. -/
def observe (w : Work α) : Work (Outcome α) :=
  tryCatch (Except.ok <$> w) fun e => pure (.error e)

end Work
end ValueDocs
