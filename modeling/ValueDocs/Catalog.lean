import ValueDocs.Text.Blank
import ValueDocs.Value.Declared

/-!
# Catalog — the symbols and articles of a documentation module

A symbol has a title, a path and metadata.  A reference names a symbol by its title, by its whole
path or by the last parts of it; slashes at the ends of a reference count for nothing.  A catalog is
kept as its author gave it: a title or a module that is no text is shown as one, but no reference
names it, and a path that is no text cannot be looked at.
-/

namespace ValueDocs

/-- A documented symbol. -/
structure Symbol where
  title : Json
  path : Json
  metadata : Json.Fields := []
  deriving DecidableEq, Inhabited

/-- The symbols and articles of a module. -/
structure Catalog where
  module : Json
  symbols : List Symbol := []
  articles : List Json := []
  deriving DecidableEq, Inhabited

/-- The text without slashes at its ends. -/
def trimSlashes (s : List Char) : List Char := Text.trimBy (· == '/') s

namespace Symbol

/-- The values a symbol declares. -/
def declaredValues (s : Symbol) : Outcome (List DeclaredValue) :=
  Metadata.declaredValues (.obj s.metadata)

/-- The path of a symbol as it is shown. -/
def pathText (s : Symbol) : String := s.path.display

/-- Whether the path of a symbol is a text. -/
def hasPath (s : Symbol) : Bool := s.path.string?.isSome

/-- Whether a reference names a symbol by its path. -/
def isAt (name : List Char) (path : String) : Bool :=
  let path := trimSlashes path.toList
  path == name || ('/' :: name).isSuffixOf path

/-- Whether a reference names a symbol. -/
def isNamedBy (s : Symbol) (reference : String) : Bool :=
  let name := trimSlashes (Text.trim reference.toList)
  match s.path.string? with
  | some path => s.title.string?.map String.toList == some name || isAt name path
  | none => false

theorem hasPath_of_isNamedBy (s : Symbol) {reference : String}
    (h : s.isNamedBy reference = true) : s.hasPath = true := by
  unfold isNamedBy at h
  unfold hasPath
  cases hpath : s.path.string? with
  | none => simp [hpath] at h
  | some path => rfl

/-- Whether a reference names a symbol, where both the reference and the path are texts. -/
def accepts (s : Symbol) (reference : Json) : Outcome Bool :=
  match reference.string? with
  | some r => if s.hasPath then .ok (s.isNamedBy r) else .error .noMember
  | none => .error .noMember

theorem accepts_str (s : Symbol) (r : String) :
    s.accepts (.str r) = if s.hasPath then .ok (s.isNamedBy r) else .error .noMember := rfl

/-- The symbol in a data tree, in a module. -/
def ofJson (module j : Json) : Outcome Symbol := do
  let title ← j.get "title" .null
  if !title.truthy then throw (.untitledSymbol j)
  let path ← j.get "path" .null
  let path := if path.truthy then path else .str ("/" ++ module.display ++ "/" ++ title.display)
  let metadata := match j with
    | .obj fields => fields.filter fun f => f.1 ≠ "title" ∧ f.1 ≠ "path"
    | _ => []
  return ⟨title, path, metadata⟩

/-- The data tree of a symbol. -/
def toJson (s : Symbol) : Json :=
  .obj [("title", s.title), ("path", s.path), ("metadata", .obj s.metadata)]

end Symbol

namespace Catalog

/-- The first symbol that a reference names. -/
def find? (c : Catalog) (reference : String) : Option Symbol :=
  c.symbols.find? (·.isNamedBy reference)

/-- Looks a reference up: the symbols are asked one after another. -/
def find (c : Catalog) (reference : Json) : Outcome (Option Symbol) :=
  c.symbols.findM? (·.accepts reference)

/-- **A lookup of a text** finds the first symbol it names; every symbol up to that one must have a
path that is a text. -/
theorem find_text (c : Catalog) (r : String) :
    c.find (.str r) = if (c.symbols.takeWhile fun s => !s.isNamedBy r).all (·.hasPath) then
      .ok (c.find? r) else .error .noMember := by
  unfold find find?
  induction c.symbols with
  | nil => rfl
  | cons s rest ih =>
    rw [List.findM?, Symbol.accepts_str]
    cases hname : s.isNamedBy r with
    | true => simp [s.hasPath_of_isNamedBy hname, hname, bind, Except.bind, pure, Except.pure]
    | false => cases hpath : s.hasPath <;> simp_all [bind, Except.bind]

/-- The catalog in a data tree. -/
def ofJson (j : Json) : Outcome Catalog := do
  let module ← j.get "module" (.str "")
  let symbols ← (← j.get "symbols" (.arr [])).mapElements (Symbol.ofJson module)
  let articles ← (← j.get "articles" (.arr [])).elements
  return ⟨module, symbols, articles⟩

end Catalog
end ValueDocs
