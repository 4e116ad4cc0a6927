import ValueDocs.Text.Lines

/-!
# Files/Path — slash-separated paths

A path is absolute or relative and has a list of parts.  Reading a written path drops empty parts
and parts that name the same directory, and keeps those that name the parent: only a file tree can
say where those lead.  Exactly two slashes in front are kept, any other number counts as one.
-/

namespace ValueDocs

/-- Where a path starts. -/
inductive PathStart where
  /-- The current directory. -/
  | here
  | root
  /-- The root, written with two slashes. -/
  | doubleRoot
  deriving DecidableEq, Repr, Inhabited

/-- The slashes in front of a path. -/
def PathStart.written : PathStart → String
  | here => ""
  | root => "/"
  | doubleRoot => "//"

/-- A path; a relative one without parts is the current directory. -/
structure Path where
  start : PathStart := .here
  parts : List String := []
  deriving DecidableEq, Repr, Inhabited

namespace Path

/-- The current directory. -/
def here : Path := {}

/-- The path from the root to a place. -/
def ofParts (parts : List String) : Path := ⟨.root, parts⟩

/-- Whether a path starts at the root. -/
def absolute (p : Path) : Bool := p.start ≠ .here

/-- Where a written path starts. -/
def startOf (s : List Char) : PathStart :=
  match (s.takeWhile (· == '/')).length with
  | 0 => .here
  | 2 => .doubleRoot
  | _ => .root

/-- The path a text writes. -/
def ofString (s : String) : Path :=
  ⟨startOf s.toList,
    ((Text.splitAt '/' s.toList).filter fun p => p ≠ [] ∧ p ≠ ['.']).map String.ofList⟩

/-- The written path. -/
def toString (p : Path) : String :=
  if p = here then "." else p.start.written ++ "/".intercalate p.parts

instance : ToString Path := ⟨toString⟩

/-- The path `q` taken from `p`. -/
def join (p q : Path) : Path := if q.absolute then q else ⟨p.start, p.parts ++ q.parts⟩

instance : HDiv Path Path Path := ⟨join⟩

instance : HDiv Path String Path := ⟨fun p s => p.join (ofString s)⟩

/-- The path without its last part. -/
def parent (p : Path) : Path := ⟨p.start, p.parts.dropLast⟩

/-- The paths above a path, from the shallowest, and the path itself last. -/
def ancestors (p : Path) : List Path :=
  (List.range (p.parts.length + 1)).map fun n => ⟨p.start, p.parts.take n⟩

/-- The last part. -/
def name (p : Path) : String := p.parts.getLast?.getD ""

/-- Splits a file name before its extension; a leading or trailing dot starts no extension. -/
def splitExtension (name : List Char) : List Char × List Char :=
  let tail := name.reverse.takeWhile (· ≠ '.')
  let stem := name.take (name.length - tail.length - 1)
  if tail.length = name.length ∨ tail = [] ∨ stem = [] then (name, [])
  else (stem, '.' :: tail.reverse)

/-- The last part without its extension. -/
def stem (p : Path) : String := String.ofList (splitExtension p.name.toList).1

/-- The path with another extension. -/
def withExtension (p : Path) (extension : String) : Path :=
  ⟨p.start, p.parts.dropLast ++ [p.stem ++ extension]⟩

/-- Follows parts from a directory, where a parent part takes one part off. -/
def follow (base : List String) (parts : List String) : List String :=
  parts.foldl (fun place part => if part = ".." then place.dropLast else place ++ [part]) base

/-- The absolute path without parent parts, seen from the directory `cwd`. -/
def resolve (cwd : List String) (p : Path) : Path :=
  ofParts (follow (if p.absolute then [] else cwd) p.parts)

/-- Orders lists of parts by the first parts that differ. -/
def leParts : List String → List String → Bool
  | [], _ => true
  | _ :: _, [] => false
  | a :: as, b :: bs => decide (a < b) || (a == b && leParts as bs)

/-- The parts by which paths are ordered: the slashes in front count as one. -/
def sortParts (p : Path) : List String :=
  if p.absolute then p.start.written :: p.parts else p.parts

/-- Orders paths part by part. -/
def le (p q : Path) : Bool := leParts p.sortParts q.sortParts

end Path
end ValueDocs
