import ValueDocs.Json.Basic
import ValueDocs.Text.Quoted

/-!
# Json/Display — data trees as a reader is shown them

Messages and previews show a tree in the notation below; a text shows as itself when it stands
alone (`display`) and in quotes inside a tree (`literal`).
-/

namespace ValueDocs.Json

/-- Whole numbers are shown plainly from `1e-4` to below `1e16`. -/
def displayStyle : Binary64.Style := ⟨-4, 16, false, "inf", "nan"⟩

mutual

/-- A tree in a message. -/
def literal : Json → String
  | null => "None"
  | bool true => "True"
  | bool false => "False"
  | int n => toString n
  | float x => displayStyle.write x
  | str s => Text.quoted s
  | arr items => "[" ++ ", ".intercalate (literalItems items) ++ "]"
  | obj fields => "\x7b" ++ ", ".intercalate (literalFields fields) ++ "\x7d"

/-- The items of a tree in a message. -/
def literalItems : List Json → List String
  | [] => []
  | j :: js => literal j :: literalItems js

/-- The fields of a tree in a message. -/
def literalFields : List (String × Json) → List String
  | [] => []
  | (k, j) :: js => (Text.quoted k ++ ": " ++ literal j) :: literalFields js

end

/-- A tree on its own. -/
def display : Json → String
  | str s => s
  | j => literal j

end ValueDocs.Json
