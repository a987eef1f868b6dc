import LetterGrammar.Text.Digit

/-!
# Integers

An integer is written with an optional sign and digits. Where the base is not fixed, the lead of the
digits tells it: `0x`, `0o` and `0b`, or a zero for base eight. Integers are words of 64 bits.

## Contents

- **`readInBase?`**: the integer that a text spells to a base.
- **`integerLead`**, **`readByLead?`**: the integer that a text spells to the base of its lead.
- **`fitsWord`**, **`fitsUnsignedWord`**: an integer is in the range of words.
-/

namespace LetterGrammar

/-- The number of integers of 64 bits on each side of zero. -/
def wordRange : Nat := Nat.pow 2 63

/-- The integer fits into 64 bits. -/
def fitsWord (n : Int) : Bool :=
  -(wordRange : Int) ≤ n && n < wordRange

/-- The integer fits into 64 bits without a sign. -/
def fitsUnsignedWord (n : Int) : Bool :=
  0 ≤ n && n < 2 * (wordRange : Int)

/-- A text without its sign, and whether that is a minus. -/
def splitSign : List Char → Bool × List Char
  | '-' :: rest => (true, rest)
  | '+' :: rest => (false, rest)
  | text => (false, text)

/-- The number, negated if it has a minus. -/
def withSign (negative : Bool) (n : Nat) : Int :=
  if negative then -(n : Int) else n

/-- The integer that a text spells to a base up to sixteen. -/
def readInBase? (base : Nat) (text : List Char) : Option Int :=
  let (negative, digits) := splitSign text
  if digits.isEmpty then none else (digitsValue? base digits).map (withSign negative)

/-- The base that the lead of a number tells, and the digits after it. A base letter is one only if
    something follows it, and a zero is a lead as well as a number. -/
def integerLead : List Char → Nat × List Char
  | '0' :: c :: d :: rest =>
    if c.toLower = 'x' then (16, d :: rest)
    else if c.toLower = 'o' then (8, d :: rest)
    else if c.toLower = 'b' then (2, d :: rest)
    else (8, c :: d :: rest)
  | '0' :: rest => (8, rest)
  | text => (10, text)

/-- The integer that a text spells to the base of its lead. -/
def readByLead? (text : List Char) : Option Int :=
  let (negative, number) := splitSign text
  let (base, digits) := integerLead number
  if number.isEmpty then none else (digitsValue? base digits).map (withSign negative)

end LetterGrammar
