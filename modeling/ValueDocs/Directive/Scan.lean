import ValueDocs.Directive.Keyword
import ValueDocs.Directive.Prose
import ValueDocs.Directive.ValueItem
import ValueDocs.Value.Documented

/-!
# Directive/Scan — the values that a page documents

Two forms document values, both as list items that are not nested in another item.  The short form
is one item a value,

    - PossibleValue January: The first month.

and the block form is one item with a label, whose nested items state the values:

    - PossibleValues:
      - January: The first month.

The lines below a value that are nested deeper continue its description or make up its prose.  The
scan walks down the lines once (`readLine` is one step of it).  It remembers the content column of the
last item, below which lines are nested, and the open fence, inside which nothing is read.
-/

namespace ValueDocs.Directive

open Text

/-- The keywords of the two forms. -/
structure Vocabulary where
  /-- The labels of the block form. -/
  block : List Keyword
  /-- The keywords of the short form. -/
  inline : List Keyword

/-- What every value of a page records. -/
structure Origin where
  source : Option String := none
  variant : Option String := none

/-! ## One value -/

/-- A value where a page states it. -/
structure Sighting where
  /-- The number of its line. -/
  number : Int
  line : Line
  /-- The width of what stands before the text of the value. -/
  column : Nat
  item : ValueItem
  /-- The lines nested below its line. -/
  region : List Line
  deriving DecidableEq, Repr

/-- A line of a description, and the column where it starts. -/
structure DescriptionLine where
  line : Int
  column : Int
  text : List Char

/-- The lines of a description: the rest of the marker line unless it is blank, and the lines that
continue it. -/
def descriptionLines (n valueColumn : Int) (item : ValueItem) (continued : List Line) :
    List DescriptionLine :=
  let own : List DescriptionLine :=
    if isBlankLine item.description then []
    else [⟨n, valueColumn + item.descriptionStart + indent item.description + 1,
      trim item.description⟩]
  own ++ continued.mapIdx fun k l => ⟨n + 1 + k, indent l + 1, trim l⟩

/-- The value that is stated somewhere. -/
def valueOf (origin : Origin) (s : Sighting) : DocumentedValue :=
  let nameColumn : Int := s.column + s.item.nameStart + 1
  let continued := continuation s.region
  let description := descriptionLines s.number s.column s.item continued
  let stop : Position :=
    ⟨s.number + continued.length, endColumn (continued.getLastD s.line)⟩
  { name := String.ofList (trim s.item.name)
    shortDescription := String.ofList (unlines (description.map (·.text)))
    prose := blocks (s.number + 1 + continued.length) (s.region.drop continued.length)
    range := some ⟨⟨s.number, indent s.line + 1⟩, stop⟩
    nameRange := some (.onLine s.number nameColumn (nameColumn + s.item.name.length))
    descriptionRange := description.head?.map fun d => ⟨⟨d.line, d.column⟩, stop⟩
    descriptionColumns := description.map (·.column)
    source := origin.source
    variant := origin.variant }

/-! ## The block form -/

/-- What one line of a block tells: a value perhaps, how many of the lines below it are read with
it, and the indentation of the first nested item. -/
structure NestedReading where
  found : Option Sighting := none
  skipped : Nat := 0
  child : Option Nat

/-- Reads the line `n` of a block; `child` is the indentation of the first nested item, and items
nested deeper are no values. -/
def readNested (child : Option Nat) (n : Int) (line : Line) (below : List Line) : NestedReading :=
  if !isFilled line || child.any (· < indent line) then { child }
  else match ListItem.ofLine? line with
    | none => { child }
    | some item =>
      let inside := region (indent line) below
      let column := indent line + item.marker.length + item.gap.length
      { found := (ValueItem.ofContent? item.content).map (⟨n, line, column, ·, inside⟩)
        skipped := inside.length
        child := child <|> some (indent line) }

/-- The values nested below a label, from the line `n` on. -/
def blockSightings (child : Option Nat) (n : Int) : List Line → List Sighting
  | [] => []
  | line :: below =>
    let r := readNested child n line below
    r.found.toList ++ blockSightings r.child (n + 1 + r.skipped) (below.drop r.skipped)
termination_by ls => ls.length
decreasing_by simp only [List.length_cons, List.length_drop]; omega

/-! ## The scan -/

/-- What the scan knows of the lines above: the content column of the item they belong to, or the
run of the fence they are in. -/
inductive Above where
  | nothing
  | item (contentColumn : Nat)
  | fence (run : List Char)
  deriving DecidableEq, Repr

/-- Whether a line is nested in the item above it. -/
def Above.nests (above : Above) (line : Line) : Bool :=
  match above with
  | item column => column ≤ indent line
  | _ => false

/-- The greatest indentation of a line outside every item. -/
def outermostIndent : Nat := 3

/-- What one line of a page tells: the values it introduces, how many of the lines below it are
read with it, and what is above the lines after those. -/
structure Reading where
  found : List Sighting := []
  skipped : Nat := 0
  above : Above

/-- Reads the line `n`, a list item outside every other. -/
def readItem (vocabulary : Vocabulary) (n : Int) (line : Line) (item : ListItem)
    (below : List Line) : Reading :=
  let inside := region (indent line) below
  let above := Above.item item.contentColumn
  if isLabel vocabulary.block item.content then
    { found := blockSightings none (n + 1) inside, skipped := inside.length, above }
  else match afterIntroduction? vocabulary.inline item.content with
    | none => { above }
    | some stated =>
      let column := item.contentColumn + (item.content.length - stated.length)
      { found := ((ValueItem.ofContent? stated).map (⟨n, line, column, ·, inside⟩)).toList
        skipped := inside.length
        above }

/-- Reads the line `n` of a page. -/
def readLine (vocabulary : Vocabulary) (above : Above) (n : Int) (line : Line)
    (below : List Line) : Reading :=
  match above with
  | .fence run => { above := if closes run line then .nothing else above }
  | _ =>
    if !isFilled line || above.nests line then { above }
    else
      let outermost : Bool := indent line ≤ outermostIndent
      match (if outermost then fence? line else none), ListItem.ofLine? line with
      | some run, _ => { above := .fence run }
      | none, none => { above := .nothing }
      | none, some item => if outermost then readItem vocabulary n line item below else { above }

/-- The values of the lines from the line `n` on. -/
def scan (vocabulary : Vocabulary) (above : Above) (n : Int) : List Line → List Sighting
  | [] => []
  | line :: below =>
    let r := readLine vocabulary above n line below
    r.found ++ scan vocabulary r.above (n + 1 + r.skipped) (below.drop r.skipped)
termination_by ls => ls.length
decreasing_by simp only [List.length_cons, List.length_drop]; omega

/-- The values that a page body documents; `offset` lines of the page come before it. -/
def documentedValues (vocabulary : Vocabulary) (origin : Origin) (offset : Int)
    (body : List Char) : List DocumentedValue :=
  (scan vocabulary .nothing (offset + 1) (lines body)).map (valueOf origin)

end ValueDocs.Directive
