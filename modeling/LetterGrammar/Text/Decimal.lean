import LetterGrammar.Text.Digit

/-!
# Decimal numbers

A number is written as a decimal fraction, possibly with an exponent. It stands for the binary
floating-point number of 64 bits that is nearest to it, ties going to the even neighbour.

## Contents

- **`Decimal`**, **`Decimal.read?`**: a number as written.
- **`Binary`**: floating-point numbers without a sign.
- **`Decimal.binary?`**: the floating-point number that a number stands for.
- **`Decimal.whole?`**: that number rounded to an integer.
-/

namespace LetterGrammar

/-- The number `± digits · 10 ^ exponent`. -/
structure Decimal where
  negative : Bool
  digits : Nat
  exponent : Int
deriving DecidableEq, Repr

/-- The quotient rounded to the nearest integer, ties going to the even one. -/
def roundDiv (num den : Nat) : Nat :=
  let q := num / den
  let r := num % den
  if 2 * r < den then q else if den < 2 * r then q + 1 else q + q % 2

/-! ## Floating-point numbers -/

/-- A floating-point number `mantissa · 2 ^ exponent`. -/
structure Binary where
  mantissa : Nat
  exponent : Int
deriving DecidableEq, Repr

namespace Binary

/-- The least exponent of a floating-point number. -/
def leastExponent : Int := -1074

/-- The exponent at which `num / den` has a mantissa of 53 bits; the least exponent at the bottom of
    the range. -/
def exponentFor (num den : Nat) : Int :=
  let e : Int := num.log2 - den.log2 - 52
  let fits := den * Nat.pow 2 (e + 52).toNat ≤ num * Nat.pow 2 (-(e + 52)).toNat
  max (if fits then e else e - 1) leastExponent

/-- The number nearest to `num / den`. -/
def nearest (num den : Nat) : Binary :=
  let e := exponentFor num den
  let m := roundDiv (num * Nat.pow 2 (-e).toNat) (den * Nat.pow 2 e.toNat)
  if m = Nat.pow 2 53 then ⟨Nat.pow 2 52, e + 1⟩ else ⟨m, e⟩

/-- The integer nearest to the number. -/
def round (b : Binary) : Nat :=
  roundDiv (b.mantissa * Nat.pow 2 b.exponent.toNat) (Nat.pow 2 (-b.exponent).toNat)

/-- The number is too large for 64 bits. -/
def overflows (b : Binary) : Bool :=
  Nat.pow 2 1024 ≤ b.mantissa * Nat.pow 2 b.exponent.toNat

end Binary

namespace Decimal

/-- The position of the first digit before the decimal point; decides about very large and very small
    numbers without their powers of ten. -/
def magnitude (d : Decimal) : Int :=
  (Nat.toDigits 10 d.digits).length + d.exponent

/-- The floating-point number without its sign; none if it is out of range. -/
def binary? (d : Decimal) : Option Binary :=
  if d.digits = 0 || d.magnitude < -400 then some ⟨0, 0⟩
  else if 400 < d.magnitude then none
  else
    let b := Binary.nearest (d.digits * Nat.pow 10 d.exponent.toNat) (Nat.pow 10 (-d.exponent).toNat)
    if b.overflows then none else some b

/-- The floating-point number rounded to an integer. -/
def whole? (d : Decimal) : Option Int :=
  d.binary?.map fun b => if d.negative then -(b.round : Int) else b.round

/-! ## Reading -/

/-- The exponent that a text spells after its mark: a sign that may be missing, and digits. -/
def readExponent? (text : List Char) : Option Int :=
  let (negative, digits) := match text with
    | '-' :: rest => (true, rest)
    | '+' :: rest => (false, rest)
    | rest => (false, rest)
  if digits.isEmpty || !digits.all isDecimal then none
  else (digitsValue? 10 digits).map fun n => if negative then -(n : Int) else n

/-- The unsigned number that a text spells: digits with at most one point among them, and an exponent
    that may be missing. -/
def readUnsigned? (text : List Char) : Option Decimal :=
  let mantissa := text.takeWhile fun c => c ≠ 'e' && c ≠ 'E'
  let exponent? := match text.drop mantissa.length with
    | [] => some 0
    | _ :: rest => readExponent? rest
  let whole := mantissa.takeWhile (· ≠ '.')
  let fraction := (mantissa.drop whole.length).drop 1
  if (whole ++ fraction).isEmpty || !(whole ++ fraction).all isDecimal then none
  else
    match exponent?, digitsValue? 10 (whole ++ fraction) with
    | some e, some n => some ⟨false, n, e - fraction.length⟩
    | _, _ => none

/-- The number that a text spells. -/
def read? : List Char → Option Decimal
  | '-' :: rest => (readUnsigned? rest).map fun d => { d with negative := true }
  | '+' :: rest => readUnsigned? rest
  | text => readUnsigned? text

end Decimal

end LetterGrammar
