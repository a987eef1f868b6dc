/-!
# Edit distance

The least number of insertions, deletions and changes of single characters that turn one text into
another. The distances from a growing first text to all heads of the second form a row, and each further
character of the first text turns a row into the next.

## Contents

- **`nextRow`**: the row after one more character.
- **`editDistance`**: the distance of two texts.
-/

namespace LetterGrammar

/-- The rest of a row: `corner` is the old distance and `left` the new one, both one place back, and
    every character of the second text comes with the old distance at its place. -/
def rowFrom (c : Char) (corner left : Nat) : List (Char × Nat) → List Nat
  | [] => []
  | (x, above) :: rest =>
    let d := min (min (above + 1) (left + 1)) (if x = c then corner else corner + 1)
    d :: rowFrom c above d rest

/-- The row after one more character of the first text. -/
def nextRow (second : List Char) (row : List Nat) (c : Char) : List Nat :=
  match row with
  | [] => []
  | corner :: above => (corner + 1) :: rowFrom c corner (corner + 1) (second.zip above)

/-- The least number of insertions, deletions and changes that turn `first` into `second`. -/
def editDistance (first second : List Char) : Nat :=
  (first.foldl (nextRow second) (List.range (second.length + 1))).getLastD 0

end LetterGrammar
