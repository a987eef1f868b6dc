/-!
# Ranges of code points

A class of characters is a list of closed ranges of code points. The tables of the library
(`Text.Printable`, `Text.Letter`) are such lists.

## Contents

- **`CodeRange.covers`**: whether a character lies in one of the ranges.
-/

namespace LetterGrammar

/-- A closed range of code points, its first and its last member. -/
abbrev CodeRange := Nat × Nat

/-- The character lies in one of the ranges. -/
def CodeRange.covers (ranges : List CodeRange) (c : Char) : Bool :=
  ranges.any fun r => r.1 ≤ c.toNat && c.toNat ≤ r.2

end LetterGrammar
