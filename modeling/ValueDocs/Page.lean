import ValueDocs.Directive.Line
import ValueDocs.Text.Lines

/-!
# Page — a documentation page: front matter, title, body

A page may open with front matter between two lines of three dashes.  The first line after it that
says something is the title if it is a heading of the first level around a symbol link.  The body
is what follows the title, and the lines up to it are counted, so that places in the body are
places on the page.
-/

namespace ValueDocs

open Text Directive

/-- A page in its parts. -/
structure Page where
  title : Option String
  body : List Char
  /-- The number of lines before the body. -/
  offset : Nat
  deriving DecidableEq, Repr

namespace Page

/-- Whether a line bounds the front matter. -/
def isFrontMatterBound (line : Line) : Bool := trim line == "---".toList

/-- The number of lines of the front matter that a page opens with. -/
def frontMatterLength : List Line → Nat
  | [] => 0
  | first :: rest =>
    if isFrontMatterBound first then
      match rest.findIdx? isFrontMatterBound with
      | some k => k + 2
      | none => 0
    else 0

/-- The symbol that a heading line links to. -/
def headingSymbol? (line : Line) : Option (List Char) :=
  match line with
  | '#' :: rest =>
    match rest.takeWhile isBlank, trimEnd (rest.dropWhile isBlank) with
    | _ :: _, '`' :: '`' :: link =>
      match link.reverse with
      | '`' :: '`' :: c :: symbol => some (trim (c :: symbol).reverse)
      | _ => none
    | _, _ => none
  | _ => none

/-- The title, the lines below it and the number of lines up to it, of the lines after `n`. -/
def splitTitle? (n : Nat) : List Line → Option (List Char × List Line × Nat)
  | [] => none
  | line :: below =>
    if isFilled line then (headingSymbol? line).map fun symbol => (symbol, below, n + 1)
    else splitTitle? (n + 1) below

/-- The page that a text makes up. -/
def ofText (text : List Char) : Page :=
  let ls := lines text
  let start := frontMatterLength ls
  match splitTitle? start (ls.drop start) with
  | some (symbol, below, offset) => ⟨some (String.ofList symbol), unlines below, offset⟩
  | none => ⟨none, text, 0⟩

end Page
end ValueDocs
