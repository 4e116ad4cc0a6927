import ValueDocs.Directive.Line
import ValueDocs.Text.CaseMap.Lower

/-!
# Directive/Keyword — the keywords that introduce values

A keyword is matched without regard to case, and between its words any blanks or none may stand.
Keywords without a word count for nothing; a list that has no other ones stands for the one
keyword without words, which every text starts with.
-/

namespace ValueDocs.Directive

open Text

/-- A keyword, as its words. -/
abbrev Keyword := List (List Char)

/-- The keywords of a list of texts. -/
def keywords (texts : List String) : List Keyword :=
  match (texts.map fun s => words s.toList).filter (· ≠ []) with
  | [] => [[]]
  | ks => ks

/-- What follows a word at the start of a text. -/
def afterWord? : List Char → List Char → Option (List Char)
  | [], s => some s
  | _ :: _, [] => none
  | letter :: word, c :: s => if CaseMap.sameLetter letter c then afterWord? word s else none

/-- What follows a keyword at the start of a text. -/
def afterKeyword? : Keyword → List Char → Option (List Char)
  | [], s => some s
  | [word], s => afterWord? word s
  | word :: next :: more, s => do
    afterKeyword? (next :: more) (trimStart (← afterWord? word s))

/-- Whether a text is a keyword and a colon, up to blanks. -/
def isLabel (ks : List Keyword) (content : List Char) : Bool :=
  ks.any fun k =>
    match afterKeyword? k (trim content) with
    | some rest => trim rest == [':']
    | none => false

/-- What follows blanks at the start of a text; if nothing else does, the last blank does, provided
another stands before it. -/
def afterGap? (s : List Char) : Option (List Char) :=
  match s.takeWhile isBlank, s.dropWhile isBlank with
  | [], _ => none
  | _ :: _, c :: rest => some (c :: rest)
  | _ :: gap, [] => gap.getLast?.map ([·])

/-- What follows a keyword and a gap at the start of a text, by the first keyword that fits. -/
def afterIntroduction? (ks : List Keyword) (content : List Char) : Option (List Char) :=
  ks.findSome? fun k => (afterKeyword? k content).bind afterGap?

end ValueDocs.Directive
