import ValueDocs.Files.Path
import ValueDocs.Text.Utf8
import ValueDocs.Text.Lines

/-!
# Files/Tree — a tree of directories and files

The tree maps the location of each directory and file, its parts from the root, to what is there.
The current directory is part of the tree, so a path has a location.  Reading and writing say how
they fail; nothing else in the library touches files.
-/

namespace ValueDocs

/-- What stands at a location. -/
inductive FileNode where
  | directory
  | file (bytes : List UInt8)
  deriving DecidableEq, Repr

/-- How an operation on a path fails. -/
inductive FileFault where
  | missing
  | isDirectory
  | notDirectory
  | exists
  /-- A part of the path, or all of it, is longer than a name may be. -/
  | nameTooLong
  /-- A part of the path holds the null character. -/
  | nullCharacter
  deriving DecidableEq, Repr

/-- The number and wording of a fault. -/
def FileFault.message : FileFault → String
  | missing => "[Errno 2] No such file or directory"
  | isDirectory => "[Errno 21] Is a directory"
  | notDirectory => "[Errno 20] Not a directory"
  | «exists» => "[Errno 17] File exists"
  | nameTooLong => "[Errno 36] File name too long"
  | nullCharacter => "embedded null byte"

/-- The parts of a place from the root. -/
abbrev Location := List String

/-- Directories and files by location, with the current directory. -/
structure FileTree where
  cwd : Location
  nodes : List (Location × FileNode)

namespace FileTree

/-- What stands at a location; the root is always a directory. -/
def node? (t : FileTree) (place : Location) : Option FileNode :=
  if place = [] then some .directory else t.nodes.lookup place

/-- The nodes with another one at a location. -/
def setNode (place : Location) (node : FileNode) :
    List (Location × FileNode) → List (Location × FileNode)
  | [] => [(place, node)]
  | (l, n) :: rest => if l = place then (l, node) :: rest else (l, n) :: setNode place node rest

/-- The tree with another node at a location. -/
def set (t : FileTree) (place : Location) (node : FileNode) : FileTree :=
  { t with nodes := setNode place node t.nodes }

/-- The tree with nothing at a location. -/
def erase (t : FileTree) (place : Location) : FileTree :=
  { t with nodes := t.nodes.filter fun n => n.1 ≠ place }

theorem lookup_setNode_self (place : Location) (node : FileNode) (ns : List (Location × FileNode)) :
    (setNode place node ns).lookup place = some node := by
  induction ns with
  | nil => simp [setNode]
  | cons n rest ih =>
    obtain ⟨l, n⟩ := n
    by_cases h : l = place
    · simp [setNode, h]
    · have hn : (place == l) = false := by simpa using fun e => h e.symm
      simp [setNode, h, List.lookup_cons, hn, ih]

theorem lookup_setNode_of_ne {place other : Location} (h : other ≠ place) (node : FileNode)
    (ns : List (Location × FileNode)) : (setNode place node ns).lookup other = ns.lookup other := by
  have hne : (other == place) = false := by simpa using h
  induction ns with
  | nil => simp [setNode, List.lookup_cons, hne]
  | cons n rest ih =>
    obtain ⟨l, n⟩ := n
    by_cases hl : l = place
    · subst hl
      simp [setNode, List.lookup_cons, hne]
    · simp [setNode, hl, List.lookup_cons, ih]

/-! ## Finding a path -/

/-- The number of bytes a part of a path may have. -/
def partLimit : Nat := 255

/-- The number of bytes a written path may have. -/
def pathLimit : Nat := 4095

/-- Follows parts from a location; every part but the last must be a directory. -/
def walk (t : FileTree) (place : Location) : List String → Except FileFault Location
  | [] => .ok place
  | part :: rest =>
    match t.node? place with
    | none => .error .missing
    | some (.file _) => .error .notDirectory
    | some .directory =>
      if partLimit < part.utf8ByteSize then .error .nameTooLong
      else t.walk (if part = ".." then place.dropLast else place ++ [part]) rest

/-- Whether a part of a path holds the null character. -/
def hasNull (p : Path) : Bool := p.parts.any fun part => part.toList.contains '\x00'

/-- The location of a path, where something need not stand yet. -/
def locate (t : FileTree) (p : Path) : Except FileFault Location :=
  if hasNull p then .error .nullCharacter
  else if pathLimit < p.toString.utf8ByteSize then .error .nameTooLong
  else t.walk (if p.absolute then [] else t.cwd) p.parts

/-- What stands at a path; only a name that is too long is a fault. -/
def at? (t : FileTree) (p : Path) : Except FileFault (Option FileNode) :=
  match t.locate p with
  | .ok place => .ok (t.node? place)
  | .error .nameTooLong => .error .nameTooLong
  | .error _ => .ok none

/-! ## Reading and writing -/

/-- The bytes of the file at a path. -/
def readBytes (t : FileTree) (p : Path) : Except FileFault (List UInt8) := do
  match t.node? (← t.locate p) with
  | none => throw .missing
  | some .directory => throw .isDirectory
  | some (.file bytes) => return bytes

/-- The tree with the bytes of the file at a path changed by `f`; a new file starts empty. -/
def modifyBytes (t : FileTree) (p : Path) (f : List UInt8 → List UInt8) :
    Except FileFault FileTree := do
  let place ← t.locate p
  match t.node? place.dropLast with
  | none => throw .missing
  | some (.file _) => throw .notDirectory
  | some .directory =>
    match t.node? place with
    | some .directory => throw .isDirectory
    | some (.file bytes) => return t.set place (.file (f bytes))
    | none => return t.set place (.file (f []))

/-- The tree with a text as the file at a path. -/
def writeText (t : FileTree) (p : Path) (text : String) : Except FileFault FileTree :=
  t.modifyBytes p fun _ => Text.Utf8.encode text.toList

/-- The tree with a text added to the file at a path. -/
def appendText (t : FileTree) (p : Path) (text : String) : Except FileFault FileTree :=
  t.modifyBytes p fun bytes => bytes ++ Text.Utf8.encode text.toList

/-- The tree with a directory at a path whose parent is there; one that is there stays. -/
def makeDirectory (t : FileTree) (p : Path) : Except FileFault FileTree := do
  let place ← t.locate p
  match t.node? place with
  | some .directory => return t
  | some (.file _) => throw .exists
  | none => return t.set place .directory

/-- The tree with directories at a path and at every path above it. -/
def makeDirectories (t : FileTree) (p : Path) : Except FileFault FileTree :=
  match t.makeDirectory p with
  | .error .missing => p.ancestors.foldlM makeDirectory t
  | result => result

/-- The tree without the file at a path; nothing there is no fault. -/
def remove (t : FileTree) (p : Path) : Except FileFault FileTree :=
  match t.locate p with
  | .error .missing => .ok t
  | .error e => .error e
  | .ok place =>
    match t.node? place with
    | none => .ok t
    | some .directory => .error .isDirectory
    | some (.file _) => .ok (t.erase place)

/-- The locations of the files at or below a location. -/
def filesBelow (t : FileTree) (place : Location) : List Location :=
  t.nodes.filterMap fun (l, n) =>
    match n with
    | .directory => none
    | .file _ => if place.isPrefixOf l then some l else none

end FileTree
end ValueDocs
