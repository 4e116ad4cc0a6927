import ValueDocs.Text.CaseMap.Fold

/-!
# Value/Key — when two value names are the same name

Names are compared by a key: the name itself, or its case folding when case does not count.
-/

namespace ValueDocs

/-- The key by which a name is compared. -/
def nameKey (caseSensitive : Bool) (name : String) : List Char :=
  if caseSensitive then name.toList else Text.CaseMap.fold name.toList

@[simp] theorem nameKey_true (name : String) : nameKey true name = name.toList := rfl

end ValueDocs
