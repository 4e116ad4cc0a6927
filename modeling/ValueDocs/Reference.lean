import ValueDocs.Text.Blank

/-!
# Reference — references to symbols and articles in prose

A symbol reference stands between two backticks on each side, an article reference between `<doc:`
and `>`.  References are found from left to right and do not overlap.
-/

namespace ValueDocs

open Text

/-- What a reference refers to. -/
inductive ReferenceKind where
  | symbol
  | article
  deriving DecidableEq, Repr, Inhabited

/-- A reference at the characters from `start` to before `stop`. -/
structure Reference where
  target : String
  kind : ReferenceKind
  start : Nat
  stop : Nat
  deriving DecidableEq, Repr, Inhabited

namespace ReferenceKind

/-- The name of a kind. -/
def name : ReferenceKind → String
  | symbol => "symbol"
  | article => "article"

/-- The written form of a reference. -/
def write (kind : ReferenceKind) (target : List Char) : List Char :=
  match kind with
  | symbol => "``".toList ++ target ++ "``".toList
  | article => "<doc:".toList ++ target ++ ">".toList

end ReferenceKind

namespace Reference

/-- The written form of a reference. -/
def raw (r : Reference) : String := String.ofList (r.kind.write r.target.toList)

/-- Whether a character may stand in a symbol reference. -/
def isSymbolChar (c : Char) : Bool := c != '`' && c != '\n'

/-- Whether a character may stand in an article reference. -/
def isArticleChar (c : Char) : Bool := c != '>' && !isBlank c

/-- The kind, the target as written and the length of a reference at the start of a text. -/
def here? (s : List Char) : Option (ReferenceKind × List Char × Nat) :=
  match s with
  | '`' :: '`' :: rest =>
    match rest.takeWhile isSymbolChar, rest.dropWhile isSymbolChar with
    | c :: target, '`' :: '`' :: _ => some (.symbol, c :: target, target.length + 5)
    | _, _ => none
  | '<' :: 'd' :: 'o' :: 'c' :: ':' :: rest =>
    match rest.takeWhile isArticleChar, rest.dropWhile isArticleChar with
    | c :: target, '>' :: _ => some (.article, c :: target, target.length + 7)
    | _, _ => none
  | _ => none

/-- The references in a text that starts at an offset. -/
def findFrom (offset : Nat) (s : List Char) : List Reference :=
  match s with
  | [] => []
  | _ :: rest =>
    match here? s with
    | none => findFrom (offset + 1) rest
    | some (kind, target, length) =>
      ⟨String.ofList (trim target), kind, offset, offset + length⟩ ::
        findFrom (offset + length) (rest.drop (length - 1))
termination_by s.length
decreasing_by all_goals simp only [List.length_cons, List.length_drop]; omega

/-- The references in a text, from left to right. -/
def find (text : String) : List Reference := findFrom 0 text.toList

end Reference
end ValueDocs
