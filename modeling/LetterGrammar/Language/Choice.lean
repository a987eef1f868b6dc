/-!
# Choices from a source of numbers

Random choices are driven by a list of numbers, read again and again from its start. A choice below `n`
takes the upper 31 of the low 63 bits of a number, or all 63 of them if 31 are too few for the bound;
numbers that would make some choices likelier than others are passed over.

## Contents

- **`Source`**, **`Source.next`**: the numbers, and how many have been drawn.
- **`Source.draw`**: the upper bits of a number.
- **`Source.below?`**: a choice below a bound.
-/

namespace LetterGrammar

/-- A cyclic source of numbers. -/
structure Source where
  numbers : List Int
  drawn : Nat
deriving DecidableEq, Repr

namespace Source

/-- The source at its start. -/
def start (numbers : List Int) : Source := ⟨numbers, 0⟩

/-- The low 63 bits of the next number. An empty source yields zeros and is never advanced. -/
def next (s : Source) : Nat × Source :=
  match s.numbers[s.drawn % s.numbers.length]? with
  | none => (0, s)
  | some v => ((v % (Nat.pow 2 63 : Nat)).toNat, ⟨s.numbers, s.drawn + 1⟩)

/-- The upper bits of the next number, `width` of its 63. -/
def draw (width : Nat) (s : Source) : Nat × Source :=
  (s.next.1 / Nat.pow 2 (63 - width), s.next.2)

/-- The number is a power of two. -/
def isPowerOfTwo (n : Nat) : Bool :=
  n = Nat.pow 2 n.log2

/-- The largest draw of a width that is used for a choice below `n`. -/
def ceiling (width n : Nat) : Nat :=
  Nat.pow 2 width - 1 - Nat.pow 2 width % n

/-- Draws until one is not above the ceiling. If a whole cycle is above it, no draw ever is below. -/
def drawUpTo? (width limit : Nat) : Nat → Source → Option (Nat × Source)
  | 0, _ => none
  | tries + 1, s =>
    if (s.draw width).1 ≤ limit then some (s.draw width)
    else drawUpTo? width limit tries (s.draw width).2

/-- The number of bits that a choice below `n` is made from. -/
def widthFor (n : Nat) : Nat :=
  if n < Nat.pow 2 31 then 31 else 63

/-- A choice below `n`. Fails if no number of the source can ever make it. -/
def below? (s : Source) (n : Nat) : Option (Nat × Source) :=
  let width := widthFor n
  if isPowerOfTwo n then some ((s.draw width).1 % n, (s.draw width).2)
  else (drawUpTo? width (ceiling width n) (s.numbers.length + 1) s).map fun d => (d.1 % n, d.2)

end Source

end LetterGrammar
