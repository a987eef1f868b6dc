import LetterGrammar.Text.Decimal

/-!
# The shortest text of a number

A floating-point number is shown with the fewest digits that read back as the same number, and of those
by the digits nearest to it. Numbers from `10 ^ -4` up to `10 ^ 6` are shown without an exponent.

## Contents

- **`Binary.shortest`**: the digits of a floating-point number.
- **`Decimal.shown`**: the text that shows the floating-point number a decimal number stands for.
-/

namespace LetterGrammar

namespace Binary

/-- The weight of the last bit, as a whole number of units of a power of ten, and the negated exponent
    of that power. -/
def lastBit (b : Binary) : Nat × Nat :=
  if 0 ≤ b.exponent then (Nat.pow 2 b.exponent.toNat, 0)
  else (Nat.pow 5 (-b.exponent).toNat, (-b.exponent).toNat)

/-- A quarter of the gap to the next lower number, in quarters of the last bit: numbers just below a power
    of two lie twice as close. -/
def lowerGap (b : Binary) : Nat :=
  if b.mantissa = Nat.pow 2 52 && leastExponent < b.exponent then 1 else 2

/-- The whole number `n`, in the units of `lastBit`, reads back as the number. -/
def readsBack (b : Binary) (n : Nat) : Bool :=
  let bit := b.lastBit.1
  let low := 4 * b.mantissa * bit - b.lowerGap * bit
  let high := 4 * b.mantissa * bit + 2 * bit
  if b.mantissa % 2 = 0 then low ≤ 4 * n && 4 * n ≤ high else low < 4 * n && 4 * n < high

/-- The multiple of `unit` nearest to the number among those that read back as it. -/
def multiple? (b : Binary) (unit : Nat) : Option Nat :=
  let value := b.mantissa * b.lastBit.1
  let below := value / unit
  let nearer := roundDiv value unit
  let farther := if nearer = below then below + 1 else below
  if b.readsBack (nearer * unit) then some nearer
  else if b.readsBack (farther * unit) then some farther
  else none

/-- The number `n · 10 ^ e` without zeros at the end of `n`. -/
def stripZeros : Nat → Nat → Int → Nat × Int
  | 0, n, e => (n, e)
  | steps + 1, n, e => if n % 10 = 0 then stripZeros steps (n / 10) (e + 1) else (n, e)

/-- The fewest digits that read back as the number, and their exponent. -/
def shortest (b : Binary) : Nat × Int :=
  if b.mantissa = 0 then (0, 0)
  else
    let (bit, scale) := b.lastBit
    let length := (Nat.toDigits 10 (b.mantissa * bit)).length
    let found := (List.range length).findSome? fun dropped =>
      let zeros := length - 1 - dropped
      (b.multiple? (Nat.pow 10 zeros)).map fun n => (n, (zeros : Int) - scale)
    let (n, e) := found.getD (b.mantissa * bit, -(scale : Int))
    stripZeros length n e

end Binary

namespace Decimal

/-- The exponent of a number in scientific notation, with its sign and at least two digits. -/
def exponentText (e : Int) : String :=
  let digits := toString e.natAbs
  "e" ++ (if e < 0 then "-" else "+") ++ (if digits.length < 2 then "0" ++ digits else digits)

/-- The text of the number whose digits stand after a point that is moved by `point` places. -/
def shownDigits (digits : List Char) (point : Int) : String :=
  let zeros (n : Int) : List Char := List.replicate n.toNat '0'
  if point - 1 < -4 || 6 ≤ point - 1 then
    String.ofList (digits.take 1 ++ (if digits.length = 1 then [] else '.' :: digits.drop 1))
    ++ exponentText (point - 1)
  else if point ≤ 0 then String.ofList ('0' :: '.' :: zeros (-point) ++ digits)
  else if digits.length ≤ point then String.ofList (digits ++ zeros (point - digits.length))
  else String.ofList (digits.take point.toNat ++ '.' :: digits.drop point.toNat)

/-- The text that shows a floating-point number without its sign. -/
def shownBinary (b : Binary) : String :=
  let (n, e) := b.shortest
  let digits := Nat.toDigits 10 n
  if n = 0 then "0" else shownDigits digits (digits.length + e)

/-- The text that shows the floating-point number a number stands for. Out of range there is none. -/
def shown (d : Decimal) : String :=
  (if d.negative then "-" else "") ++ ((d.binary?.map shownBinary).getD "Inf")

end Decimal

end LetterGrammar
