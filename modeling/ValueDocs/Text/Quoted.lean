import ValueDocs.Text.Printable
import ValueDocs.Number.Shortest

/-!
# Text/Quoted — a text in quotes for a message

A quoted text stands in single quotes, or in double quotes if it holds a single quote and no
double one.  The quote, the backslash and every character that would not show are escaped.
-/

namespace ValueDocs.Text

/-- Hexadecimal digits padded to a width. -/
def hexDigits (width n : Nat) : List Char := Binary64.padZeros width (Nat.toDigits 16 n)

/-- A character inside quotes. -/
def quoteChar (quote c : Char) : List Char :=
  let n := c.toNat
  if c = quote ∨ c = '\\' then ['\\', c]
  else if c = '\n' then ['\\', 'n']
  else if c = '\r' then ['\\', 'r']
  else if c = '\t' then ['\\', 't']
  else if isPrintable c then [c]
  else if n < 0x100 then '\\' :: 'x' :: hexDigits 2 n
  else if n < 0x10000 then '\\' :: 'u' :: hexDigits 4 n
  else '\\' :: 'U' :: hexDigits 8 n

/-- The quote a text is put in. -/
def quoteFor (s : List Char) : Char :=
  if s.contains '\'' && !s.contains '"' then '"' else '\''

/-- A text in quotes. -/
def quoted (s : String) : String :=
  let q := quoteFor s.toList
  String.ofList (q :: s.toList.flatMap (quoteChar q) ++ [q])

end ValueDocs.Text
