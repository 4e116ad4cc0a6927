/-!
# Suggestion/EditDistance — the least number of edits between two texts

An edit inserts, deletes or replaces one character.  The distances from the beginning of the longer
text to each beginning of the shorter one make a row.  One character more gives the next row, and
the distance of the whole texts stands last in the last row.
-/

namespace ValueDocs.EditDistance

variable {α : Type} [DecidableEq α]

/-- What follows in a row from a distance on: the next comes from this one and the two above. -/
def row (x : α) : Nat → List Nat → List α → List Nat
  | last, d :: e :: above, y :: ys =>
    let next := min (min (e + 1) (last + 1)) (d + if x = y then 0 else 1)
    last :: row x next (e :: above) ys
  | last, _, _ => [last]

/-- The last row, after the row of so many characters. -/
def lastRow : Nat → List Nat → List α → List α → List Nat
  | _, above, [], _ => above
  | i, above, x :: xs, ys => lastRow (i + 1) (row x (i + 1) above ys) xs ys

/-- The distance of a text to one that is no longer. -/
def distanceToShorter (xs ys : List α) : Nat :=
  if ys.length = 0 then xs.length
  else (lastRow 0 (List.range (ys.length + 1)) xs ys).getLastD 0

/-- The least number of edits that turn one text into another. -/
def distance (xs ys : List α) : Nat :=
  if xs.length < ys.length then distanceToShorter ys xs else distanceToShorter xs ys

end ValueDocs.EditDistance
