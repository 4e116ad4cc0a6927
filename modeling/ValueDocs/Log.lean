import ValueDocs.Failure
import ValueDocs.Json.Print

/-!
# Log — messages to the reader of a run

An operation may tell its reader of something it mended or could not do.  Messages are collected in
order; a failure keeps those written before it.  A message may show a data tree, unless a whole
number in it has more digits than one may be written with.
-/

namespace ValueDocs

/-- How much a message matters, from least to most. -/
inductive Level where
  | debug
  | info
  | warning
  | error
  deriving DecidableEq, Repr, Inhabited

namespace Level

/-- The name of a level. -/
def name : Level → String
  | debug => "DEBUG"
  | info => "INFO"
  | warning => "WARNING"
  | error => "ERROR"

/-- The levels, from least to most. -/
def all : List Level := [debug, info, warning, error]

/-- The place of a level among all. -/
def rank : Level → Nat
  | debug => 0
  | info => 1
  | warning => 2
  | error => 3

/-- The level with a name. -/
def ofName? (name : String) : Option Level := all.find? fun l => l.name = name

end Level

/-- A message with its level. -/
structure Message where
  level : Level
  text : String
  deriving DecidableEq, Repr

/-- The written form of a message. -/
def Message.toString (m : Message) : String := m.level.name ++ ": " ++ m.text

/-- A computation that writes messages. -/
abbrev Logged := StateM (List Message)

/-- A computation that writes messages and may fail. -/
abbrev Attempt := ExceptT Failure Logged

namespace Logged

/-- Writes a warning. -/
def warn (text : String) : Logged Unit := modify (· ++ [⟨.warning, text⟩])

/-- Writes an error. -/
def error (text : String) : Logged Unit := modify (· ++ [⟨.error, text⟩])

end Logged

/-- The text a tree is shown by, if its numbers can be written. -/
def Json.shown (j : Json) : Outcome String :=
  if j.isWritable then .ok j.display else .error .unwritable

namespace Attempt

/-- The result of an outcome. -/
def ofOutcome (o : Outcome α) : Attempt α := ExceptT.mk (pure o)

/-- The outcome, and the messages written. -/
def run (a : Attempt α) : Outcome α × List Message := StateT.run (ExceptT.run a) []

/-- The result with the messages written, if there is a result. -/
def outcome (a : Attempt α) : Outcome (α × List Message) :=
  match a.run with
  | (.ok x, log) => .ok (x, log)
  | (.error e, _) => .error e

end Attempt
end ValueDocs
