import ValueDocs.Failure

/-!
# Files/Access — reading and writing texts in files

Each operation on a file tree fails with the path it was given.  A path where nothing can stand is
one where nothing stands, unless a name in it is too long.  A text is read with its line breaks made
line feeds, and written as it is.
-/

namespace ValueDocs.FileTree

/-- The outcome of an operation on a path. -/
def outcomeAt (p : Path) (result : Except FileFault α) : Outcome α :=
  result.mapError (Failure.file · p.toString)

/-- Whether something stands at a path. -/
def pathExists (t : FileTree) (p : Path) : Outcome Bool := do
  return (← outcomeAt p (t.at? p)).isSome

/-- Whether a file stands at a path. -/
def isFile (t : FileTree) (p : Path) : Outcome Bool := do
  match ← outcomeAt p (t.at? p) with
  | some (.file _) => return true
  | _ => return false

/-- The absolute path without parent parts. -/
def resolve (t : FileTree) (p : Path) : Outcome Path :=
  if hasNull p then outcomeAt p (.error .nullCharacter) else .ok (p.resolve t.cwd)

/-- The text of the file at a path. -/
def readText (t : FileTree) (p : Path) : Outcome (List Char) := do
  let bytes ← outcomeAt p (t.readBytes p)
  return Text.normalizeBreaks (← (Text.Utf8.decode bytes).mapError .undecodable)

/-- The data tree written in the file at a path. -/
def readJson (t : FileTree) (p : Path) : Outcome Json := do
  (Json.parseChars (← t.readText p)).mapError .malformedJson

/-- The tree with a text as the file at a path. -/
def withText (t : FileTree) (p : Path) (text : String) : Outcome FileTree :=
  outcomeAt p (t.writeText p text)

/-- The tree with a text added to the file at a path. -/
def withMoreText (t : FileTree) (p : Path) (text : String) : Outcome FileTree :=
  outcomeAt p (t.appendText p text)

/-- The tree with directories at a path and above it. -/
def withDirectories (t : FileTree) (p : Path) : Outcome FileTree :=
  outcomeAt p (t.makeDirectories p)

/-- The tree without the file at a path. -/
def without (t : FileTree) (p : Path) : Outcome FileTree := outcomeAt p (t.remove p)

end ValueDocs.FileTree
