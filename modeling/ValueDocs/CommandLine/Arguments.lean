import ValueDocs.Json.Basic
import ValueDocs.Text.Digit

/-!
# CommandLine/Arguments — what the words of a command line ask for

A word that starts with a dash is an option: by its letter or its name, or by the start of its name
where only one option starts so.  A value is the next word, or follows an equals sign or the letter
itself; two dashes within the word of an option leave its value blank.  Letters of options without
values may stand together.  After a double dash every word stands for itself.  The words that are no
options must come in one run.
-/

namespace ValueDocs.CommandLine

/-- Why a command line asks for no command. -/
inductive Stop where
  /-- It asks for help. -/
  | help
  /-- It makes no sense. -/
  | misuse
  deriving DecidableEq, Repr

/-- An option of a command. -/
structure OptionSpec where
  name : String
  letter : Option Char := none
  takesValue : Bool := true
  deriving DecidableEq, Repr

/-- The option that asks for help. -/
def helpOption : OptionSpec := { name := "help", letter := some 'h', takesValue := false }

/-- The value given for an option. -/
inductive OptionValue where
  | text (s : String)
  | blank
  deriving DecidableEq, Repr

namespace OptionValue

/-- The value that is part of a word. -/
def ofChars (s : List Char) : OptionValue :=
  if s = ['-', '-'] then blank else text (String.ofList s)

/-- The text of a value; a blank one has none. -/
def text? : OptionValue → Option String
  | text s => some s
  | blank => none

/-- The data tree of a value; a blank one has no items. -/
def toJson : OptionValue → Json
  | text s => .str s
  | blank => .arr []

end OptionValue

/-! ## One word -/

/-- What a word is. -/
inductive Word where
  | plain
  /-- An option, with the rest of its word: a value, or more letters. -/
  | option (spec : OptionSpec) (byLetter : Bool) (rest : Option (List Char))
  | unknown
  | ambiguous
  deriving DecidableEq, Repr

/-- Whether a word is a negative number, perhaps with a line feed after it. -/
def isNegativeNumber : List Char → Bool
  | '-' :: s =>
    let s := if s.getLast? = some '\n' then s.dropLast else s
    let whole := s.takeWhile Text.isDigit
    match s.dropWhile Text.isDigit with
    | [] => !whole.isEmpty
    | '.' :: s => !s.isEmpty && s.all Text.isDigit
    | _ => false
  | _ => false

/-- The text before the first equals sign, and the text after it. -/
def splitValue (s : List Char) : List Char × Option (List Char) :=
  match s.span (· ≠ '=') with
  | (name, _ :: value) => (name, some value)
  | (name, []) => (name, none)

/-- What an option word without its dashes is, where it may be the start of a name. -/
def named (specs : List OptionSpec) (s : List Char) : Word :=
  let (name, value) := splitValue s
  match specs.find? (·.name.toList = name) with
  | some spec => .option spec false value
  | none =>
    match specs.filter fun spec => name.isPrefixOf spec.name.toList with
    | [] => .unknown
    | [spec] => .option spec false value
    | _ => .ambiguous

/-- What an option word of one letter is; an equals sign may part the letter from what follows. -/
def lettered (specs : List OptionSpec) (letter : Char) (s : List Char) : Word :=
  match specs.find? (·.letter = some letter) with
  | none => .unknown
  | some spec =>
    match s with
    | [] => .option spec true none
    | '=' :: rest => .option spec true (some rest)
    | rest => .option spec true (some rest)

/-- What a word is. -/
def classify (specs : List OptionSpec) (s : List Char) : Word :=
  match s with
  | '-' :: c :: rest =>
    match if c = '-' then named specs rest else lettered specs c rest with
    | .unknown => if isNegativeNumber s || s.contains ' ' then .plain else .unknown
    | word => word
  | _ => .plain

/-! ## The options of a word -/

/-- The options of one word: some without values, and perhaps one that takes a value. -/
structure OptionGroup where
  flags : List String := []
  valued : Option String := none
  /-- The value, if it is part of the word. -/
  value : Option OptionValue := none
  deriving DecidableEq, Repr

namespace OptionGroup

/-- The group with one more option without a value in front. -/
def withFlag (name : String) (g : OptionGroup) : OptionGroup := { g with flags := name :: g.flags }

/-- The options of letters that stand together; none if one of them is no letter of an option. -/
def ofLetters (specs : List OptionSpec) : List Char → Option OptionGroup
  | [] => some {}
  | c :: s => do
    let spec ← specs.find? (·.letter = some c)
    if spec.takesValue then
      return { valued := spec.name, value := if s.isEmpty then none else some (.ofChars s) }
    else return (← ofLetters specs s).withFlag spec.name

/-- The options of a word, of which the first is known; none if its rest has no place. -/
def ofWord (specs : List OptionSpec) (spec : OptionSpec) (byLetter : Bool)
    (rest : Option (List Char)) : Option OptionGroup :=
  if spec.takesValue then some { valued := spec.name, value := rest.map .ofChars }
  else match rest with
    | none => some { flags := [spec.name] }
    | some s =>
      if byLetter && !s.isEmpty then (ofLetters specs s).map (·.withFlag spec.name) else none

end OptionGroup

/-! ## All words -/

/-- What has been read of a command line. -/
structure Reading where
  /-- The options without values. -/
  flags : List String := []
  /-- The options with their values, the last one last. -/
  values : List (String × OptionValue) := []
  words : List String := []
  /-- Whether the run of words is over. -/
  closed : Bool := false
  /-- Whether a double dash was read. -/
  dashed : Bool := false
  /-- Whether something was read that has no place. -/
  surplus : Bool := false
  deriving Inhabited

namespace Reading

/-- The value of an option that is given last. -/
def value? (r : Reading) (name : String) : Option OptionValue := r.values.reverse.lookup name

/-- The text of an option that is given last. -/
def text? (r : Reading) (name : String) : Option String := (r.value? name).bind OptionValue.text?

/-- Whether an option without a value is given. -/
def has (r : Reading) (name : String) : Bool := r.flags.contains name

/-- The reading after a word that is no plain one. -/
def close (r : Reading) : Reading := { r with closed := r.closed || !r.words.isEmpty }

/-- The reading after the options of a word and the value of the last of them. -/
def addOptions (r : Reading) (g : OptionGroup) (value : Option OptionValue) :
    Except Stop Reading :=
  if g.flags.contains helpOption.name then .error .help
  else
    let given := (g.valued.bind fun name => value.map (name, ·)).toList
    .ok { r with flags := r.flags ++ g.flags, values := r.values ++ given }.close

/-- The reading after a word. -/
def addWord (r : Reading) (word : String) : Reading :=
  if r.closed then { r with surplus := true } else { r with words := r.words ++ [word] }

/-- The reading after a double dash, which belongs to the run of words. -/
def addDashes (r : Reading) : Reading :=
  { r with dashed := true, surplus := r.surplus || r.closed }

end Reading

/-- Reads words.  With `first` the reading ends at the first word that is no option, and the words
from there on are left. -/
def readWords (specs : List OptionSpec) (first : Bool) (r : Reading) :
    List String → Except Stop (Reading × List String)
  | [] => .ok (r, [])
  | word :: rest =>
    if word = "--" then
      if first then .error .misuse else .ok (rest.foldl Reading.addWord r.addDashes, [])
    else match classify specs word.toList with
      | .plain =>
        if first then .ok (r, word :: rest) else readWords specs first (r.addWord word) rest
      | .unknown => readWords specs first { r.close with surplus := true } rest
      | .ambiguous => .error .misuse
      | .option spec byLetter tail =>
        match OptionGroup.ofWord specs spec byLetter tail with
        | none => .error .misuse
        | some g =>
          if g.valued.isSome && g.value.isNone then
            match rest with
            | [] => .error .misuse
            | value :: rest =>
              if value ≠ "--" ∧ classify specs value.toList = .plain then do
                readWords specs first (← r.addOptions g (some (.text value))) rest
              else .error .misuse
          else do readWords specs first (← r.addOptions g g.value) rest

/-! ## Commands -/

/-- A check of pages against a catalog. -/
structure CheckRequest where
  pages : List String
  catalog : OptionValue
  workspace : Option String := none
  variant : Option OptionValue := none
  strict : Bool := false
  json : Bool := false
  deriving DecidableEq, Repr

/-- A look at one page. -/
structure ShowRequest where
  page : String
  catalog : OptionValue
  symbol : Option String := none
  variant : Option OptionValue := none
  json : Bool := false
  deriving DecidableEq, Repr

/-- What to do. -/
inductive Command where
  | check (request : CheckRequest)
  | «show» (request : ShowRequest)
  | kernels (category : Option String)
  deriving DecidableEq, Repr

/-- What a command line asks for. -/
structure Invocation where
  verbose : Bool := false
  config : Option String := none
  command : Option Command := none
  deriving DecidableEq, Repr

/-- The options before a command. -/
def commonOptions : List OptionSpec := [
    helpOption, { name := "verbose", letter := some 'v', takesValue := false },
    { name := "config", letter := some 'c' }]

/-- The options of a check. -/
def checkOptions : List OptionSpec := [
    helpOption, { name := "catalog" }, { name := "workspace", letter := some 'w' },
    { name := "variant" }, { name := "strict", takesValue := false },
    { name := "json", takesValue := false }]

/-- The options of a look at a page. -/
def showOptions : List OptionSpec := [
    helpOption, { name := "catalog" }, { name := "symbol" }, { name := "variant" },
    { name := "json", takesValue := false }]

/-- The options of a list of kernels. -/
def kernelsOptions : List OptionSpec := [helpOption, { name := "category" }]

/-- The check that some words ask for. -/
def parseCheck (words : List String) : Except Stop (CheckRequest × Bool) := do
  let (r, _) ← readWords checkOptions false {} words
  match r.value? "catalog" with
  | none => throw .misuse
  | some catalog =>
    if r.words.isEmpty then throw .misuse
    return ({ pages := r.words, catalog, workspace := r.text? "workspace"
              variant := r.value? "variant", strict := r.has "strict", json := r.has "json" },
      r.surplus)

/-- The look at a page that some words ask for. -/
def parseShow (words : List String) : Except Stop (ShowRequest × Bool) := do
  let (r, _) ← readWords showOptions false {} words
  match r.words, r.value? "catalog" with
  | page :: others, some catalog =>
    return ({ page, catalog, symbol := r.text? "symbol", variant := r.value? "variant"
              json := r.has "json" }, r.surplus || !others.isEmpty)
  | _, _ => throw .misuse

/-- The category that some words ask for. -/
def parseKernels (words : List String) : Except Stop (Option String × Bool) := do
  let (r, _) ← readWords kernelsOptions false {} words
  return (r.text? "category", r.surplus || r.dashed || !r.words.isEmpty)

/-- The command that some words ask for, and whether something is surplus. -/
def parseCommand : List String → Except Stop (Option Command × Bool)
  | [] => .ok (none, false)
  | "check" :: words => do
    let (request, surplus) ← parseCheck words
    return (some (.check request), surplus)
  | "show" :: words => do
    let (request, surplus) ← parseShow words
    return (some (.show request), surplus)
  | "kernels" :: words => do
    let (category, surplus) ← parseKernels words
    return (some (.kernels category), surplus)
  | _ => .error .misuse

/-- Whether a word before any double dash may be the start of several common options. -/
def isAmbiguous (words : List String) : Bool :=
  (words.takeWhile (· ≠ "--")).any fun word => classify commonOptions word.toList = .ambiguous

/-- What the words of a command line ask for. -/
def parse (words : List String) : Except Stop Invocation := do
  if isAmbiguous words then throw .misuse
  let (r, rest) ← readWords commonOptions true {} words
  let (command, surplus) ← parseCommand rest
  if r.surplus || surplus then throw .misuse
  return { verbose := r.has "verbose", config := r.text? "config", command }

end ValueDocs.CommandLine
