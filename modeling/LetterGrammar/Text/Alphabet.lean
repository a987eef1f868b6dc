/-!
# Texts as alphabets

An alphabet is written as a text of letters. These are the tests a written alphabet is put to.

## Contents

- **`lowerOnly`**, **`upperOnly`**: only letters `a` to `z`, only letters `A` to `Z`.
- **`allDistinct`**: no character twice.
- **`containsAny`**: some member of a given set.
-/

namespace LetterGrammar

/-- Every character is one of `a` to `z`. -/
def lowerOnly (cs : List Char) : Bool :=
  cs.all fun c => 'a' ≤ c && c ≤ 'z'

/-- Every character is one of `A` to `Z`. -/
def upperOnly (cs : List Char) : Bool :=
  cs.all fun c => 'A' ≤ c && c ≤ 'Z'

/-- No character occurs twice. -/
def allDistinct (cs : List Char) : Bool :=
  decide cs.Nodup

/-- Some character of the text is in the set. Characters may be given by their codes. -/
def containsAny {α : Type} [BEq α] (cs set : List α) : Bool :=
  cs.any fun c => set.contains c

end LetterGrammar
