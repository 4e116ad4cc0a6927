import ValueDocs.Yaml.Document
import ValueDocs.Yaml.TokenList

/-!
# Yaml/Read — a data tree from a configuration file

A file is read in three steps: tokens, the nodes of its document, and the data tree they stand for.
A file that has no document is null.
-/

namespace ValueDocs.Yaml

/-- Whether a character may stand in a file. -/
def isAllowed (c : Char) : Bool :=
  let n := c.toNat
  n == 9 || n == 10 || n == 13 || (0x20 ≤ n && n ≤ 0x7e) || n == 0x85 ||
    (0xa0 ≤ n && n ≤ 0xfffd) || 0x10000 ≤ n

/-- The nodes of a file. -/
def nodes? (text : List Char) : Option Node := do
  if !text.all isAllowed then none
  document? (← tokens? text)

/-- The tree a file holds. -/
def parse (text : List Char) : Outcome Json := do
  (← orMalformed (nodes? text)).toJson

end ValueDocs.Yaml
