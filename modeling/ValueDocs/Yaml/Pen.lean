/-!
# Yaml/Pen — writing a file line by line

A pen knows the column it has reached, and whether a blank or only the marks of blocks stand before
it on the line.  A new line starts where more than that stands there.
-/

namespace ValueDocs.Yaml

/-- What has been written, and where the pen stands. -/
structure Pen where
  /-- The characters, the last one first. -/
  written : List Char := []
  column : Nat := 0
  /-- Whether a blank stands before the pen. -/
  spaced : Bool := true
  /-- Whether nothing but an indentation and the marks of blocks stands before it on the line. -/
  fresh : Bool := true
  deriving DecidableEq, Repr, Inhabited

namespace Pen

/-- The text that has been written. -/
def text (p : Pen) : List Char := p.written.reverse

/-- Writes characters other than breaks. -/
def put (p : Pen) (s : List Char) : Pen :=
  { p with written := s.reverse ++ p.written, column := p.column + s.length }

/-- Starts a new line. -/
def newLine (p : Pen) : Pen :=
  { written := '\n' :: p.written, column := 0, spaced := true, fresh := true }

/-- The pen with something other than a blank before it. -/
def amid (p : Pen) : Pen := { p with spaced := false, fresh := false }

/-- Moves to a column of this line, or of a new one if more than that stands before the pen. -/
def indent (p : Pen) (n : Nat) : Pen :=
  let p := if !p.fresh || n < p.column || (p.column == n && !p.spaced) then p.newLine else p
  if p.column < n then { p.put (List.replicate (n - p.column) ' ') with spaced := true } else p

/-- Writes a mark. -/
def mark (p : Pen) (s : List Char) : Pen := (p.put s).amid

/-- Writes a mark with a blank before it. -/
def markApart (p : Pen) (s : List Char) : Pen := p.mark (if p.spaced then s else ' ' :: s)

/-- Writes the mark of a block with a blank before it. -/
def markBlock (p : Pen) (c : Char) : Pen := { p.markApart [c] with fresh := p.fresh }

end Pen
end ValueDocs.Yaml
