import ValueDocs.Json.Parse
import ValueDocs.Json.Display
import ValueDocs.Files.Tree

/-!
# Failure — why an operation has no result

Each constructor is one cause.  A cause has a kind, which callers tell apart, and a wording; a
stage of a check recovers from most kinds and records the wording (`Failure.isRecoverable`).
-/

namespace ValueDocs

/-- The kinds of failure, as reports name them. -/
inductive FailureKind where
  | missingKey
  | badValue
  | wrongType
  | noMember
  | outOfRange
  | overflow
  | runtime
  | malformedJson
  | malformedYaml
  | undecodable
  | missingFile
  | isDirectory
  | notDirectory
  | fileExists
  | system
  /-- A text is wanted that holds half of a UTF-16 pair, which is no text here. -/
  | halfPair
  | other (name : String)
  deriving DecidableEq, Repr

namespace FailureKind

/-- The name of a kind in a report. -/
def name : FailureKind → String
  | missingKey => "KeyError"
  | badValue => "ValueError"
  | wrongType => "TypeError"
  | noMember => "AttributeError"
  | outOfRange => "IndexError"
  | overflow => "OverflowError"
  | runtime => "RuntimeError"
  | malformedJson => "JSONDecodeError"
  | malformedYaml => "YAMLError"
  | undecodable => "UnicodeDecodeError"
  | missingFile => "FileNotFoundError"
  | isDirectory => "IsADirectoryError"
  | notDirectory => "NotADirectoryError"
  | fileExists => "FileExistsError"
  | system => "OSError"
  | halfPair => "HalfPair"
  | other name => name

/-- The kinds with a name of their own. -/
def named : List FailureKind :=
  [missingKey, badValue, wrongType, noMember, outOfRange, overflow, runtime, malformedJson,
    malformedYaml, undecodable, missingFile, isDirectory, notDirectory, fileExists, system]

/-- The kind with a name. -/
def ofName (name : String) : FailureKind :=
  (named.find? fun kind => kind.name = name).getD (.other name)

/-- Whether the file system caused the failure. -/
def isSystem : FailureKind → Bool
  | missingFile | isDirectory | notDirectory | fileExists | system => true
  | _ => false

/-- Whether a kernel recovers from the failure and records it. -/
def isRecoverable : FailureKind → Bool
  | noMember | outOfRange | overflow | malformedYaml | halfPair | other _ => false
  | _ => true

end FailureKind

/-- Why an operation has no result. -/
inductive Failure where
  /-- An object lacks a required field. -/
  | missingKey (key : String)
  /-- A value is none of a closed set. -/
  | notListed (value : Json) (set : String)
  /-- A text writes no whole number. -/
  | notWhole (text : String)
  /-- A text writes a whole number with more digits than one may have. -/
  | tooManyDigits (digits : Nat)
  /-- A whole number with more digits than one may have is to be written. -/
  | unwritable
  /-- A whole number is wanted of what is no number. -/
  | notANumber
  /-- A whole number is wanted of an infinity. -/
  | infinite
  /-- A value is of a type the operation cannot use. -/
  | wrongType
  /-- A value has no fields, or lacks the operations of a text. -/
  | noMember
  /-- A list lacks the item that is wanted, or a text the line. -/
  | noLine
  /-- An array or an object stands where a tag is wanted. -/
  | compoundTag (tag : Json)
  /-- The metadata of a symbol is a text. -/
  | metadataIsText
  /-- A catalog lists a symbol without a title. -/
  | untitledSymbol (symbol : Json)
  /-- A text writes no data tree. -/
  | malformedJson (error : Json.ParseError)
  /-- A configuration file is malformed. -/
  | malformedYaml
  /-- Bytes encode no text. -/
  | undecodable (fault : Text.Utf8.Fault)
  /-- A file operation failed at a path. -/
  | file (fault : FileFault) (path : String)
  /-- No kernel has the name. -/
  | unknownKernel (name : String) (available : List String)
  /-- Kernels require one another in a circle. -/
  | circular (names : List String)
  | noPages
  | invalidPage (page : Json)
  | pageNotFound (path : String)
  | pageWithoutSymbol (path : String)
  | noCatalog
  | catalogNotFound (path : String)
  | symbolNotListed (symbol path : String)
  | unreadableOutput (path cause : String)
  | failedDependency (path : String)
  /-- A failure raised by a kernel from outside the library. -/
  | raised (kind : FailureKind) (message : String)

/-- The kind of a file fault. -/
def FileFault.kind : FileFault → FailureKind
  | missing => .missingFile
  | isDirectory => .isDirectory
  | notDirectory => .notDirectory
  | «exists» => .fileExists
  | nameTooLong => .system
  | nullCharacter => .badValue

/-- The wording of a file fault at a path. -/
def FileFault.messageAt (fault : FileFault) (path : String) : String :=
  if fault = .nullCharacter then fault.message else fault.message ++ ": " ++ Text.quoted path

namespace Failure

/-- The kind of a failure. -/
def kind : Failure → FailureKind
  | missingKey _ | unknownKernel .. => .missingKey
  | notListed .. | notWhole _ | tooManyDigits _ | unwritable | notANumber | untitledSymbol _
  | circular _ => .badValue
  | infinite => .overflow
  | wrongType | compoundTag _ | metadataIsText => .wrongType
  | noMember => .noMember
  | noLine => .outOfRange
  | malformedJson error =>
    match error.cause with
    | .digits _ => .badValue
    | .halfPair => .halfPair
    | _ => .malformedJson
  | malformedYaml => .malformedYaml
  | undecodable _ => .undecodable
  | file fault _ => fault.kind
  | noPages | invalidPage _ | pageNotFound _ | pageWithoutSymbol _ | noCatalog
  | catalogNotFound _ | symbolNotListed .. | unreadableOutput .. | failedDependency _ => .runtime
  | raised kind _ => kind

/-- The wording of a failure. -/
def message : Failure → String
  | missingKey key => key
  | notListed value set => value.literal ++ " is not a valid " ++ set
  | notWhole text =>
    "invalid literal for int() with base 10: " ++
      String.ofList ((Text.quoted text).toList.take 200)
  | tooManyDigits digits => Text.tooLongMessage digits
  | unwritable => Text.unwritableMessage
  | notANumber => "cannot convert float NaN to integer"
  | infinite => "cannot convert float infinity to integer"
  | wrongType => "unsupported type"
  | noMember => "unsupported member"
  | noLine => "list index out of range"
  | compoundTag tag => "unhashable type: '" ++ (if tag.isObj then "dict" else "list") ++ "'"
  | metadataIsText => "Symbol metadata must be a sequence of values or a mapping, not a string"
  | untitledSymbol symbol => "Catalog symbol without a title: " ++ symbol.literal
  | malformedJson error => error.message
  | malformedYaml => "malformed configuration"
  | undecodable fault => fault.message
  | file fault path => fault.messageAt path
  | unknownKernel name available =>
    "Kernel '" ++ name ++ "' not found. Available: " ++ ", ".intercalate available
  | circular names => "Circular dependency detected among: " ++ (Json.ofTexts names).literal
  | noPages => "No documentation pages configured"
  | invalidPage page => "Invalid page entry: " ++ page.literal
  | pageNotFound path => "Documentation page not found: " ++ path
  | pageWithoutSymbol path =>
    "Cannot tell which symbol " ++ path ++ " documents (no ``Symbol`` heading)"
  | noCatalog => "No symbol catalog configured"
  | catalogNotFound path => "Symbol catalog not found: " ++ path
  | symbolNotListed symbol path =>
    "Symbol '" ++ symbol ++ "' documented in " ++ path ++ " is not in the catalog"
  | unreadableOutput path cause => "Cannot read kernel output " ++ path ++ ": " ++ cause
  | failedDependency path => "Dependency output " ++ path ++ " records a failed run"
  | raised _ message => message

/-- The wording in a report, where the text of a missing key is quoted. -/
def report (f : Failure) : String :=
  if f.kind = .missingKey then Text.quoted f.message else f.message

/-- Whether a kernel recovers from the failure and records it. -/
def isRecoverable (f : Failure) : Bool := f.kind.isRecoverable

end Failure

/-- A result, or why there is none. -/
abbrev Outcome (α : Type) := Except Failure α

end ValueDocs
