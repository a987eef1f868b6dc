import LetterGrammar.Text.Decimal
import LetterGrammar.Text.Integer
import LetterGrammar.Toml.Literal

/-!
# Numbers in TOML

A number is cut out of the text first, by the characters it may consist of, and judged then: an integer
must fit into 64 bits, with or without a sign, and a fraction into a floating-point number.

## Contents

- **`Numeral`**: a number as cut out.
- **`numeral?`**: the number at the head of a text.
- **`Numeral.kind?`**: what the number is, unless it is malformed.
-/

namespace LetterGrammar
namespace Toml

/-- A number as cut out of a text, and whether a point or an exponent makes it a fraction. -/
structure Numeral where
  text : List Char
  fraction : Bool
deriving DecidableEq, Repr

/-! ## Cutting out -/

/-- What was seen of a number: a point, the mark of an exponent, a digit, and whether that mark came
    last. -/
structure NumeralState where
  point : Bool
  mark : Bool
  digit : Bool
  afterMark : Bool

/-- The characters of a decimal number. A point stands between digits, and a sign after the mark of an
    exponent. -/
def numeralFrom? : NumeralState → List Char → Option (Numeral × List Char)
  | s, [] => if s.digit then some (⟨[], s.point || s.mark⟩, []) else none
  | s, c :: rest =>
    let go (s : NumeralState) : Option (Numeral × List Char) :=
      (numeralFrom? s rest).map fun r => (⟨c :: r.1.text, r.1.fraction⟩, r.2)
    if c = '.' then
      if s.point || !s.digit || !((rest.head?.map isDecimal).getD false) then none
      else go { s with point := true, afterMark := false }
    else if c = 'e' || c = 'E' then go { s with mark := true, afterMark := true }
    else if isDecimal c then go { s with digit := true, afterMark := false }
    else if c = '_' || (s.afterMark && (c = '+' || c = '-')) then go { s with afterMark := false }
    else if s.digit then some (⟨[], s.point || s.mark⟩, c :: rest)
    else none

/-- The base that a letter after a zero stands for. -/
def base? (letter : Char) : Option Nat :=
  match letter with
  | 'x' => some 16
  | 'o' => some 8
  | 'b' => some 2
  | _ => none

/-- The number at the head of a text, its sign apart. -/
def unsigned? : List Char → Option (Numeral × List Char)
  | '0' :: letter :: rest =>
    match base? letter with
    | some base =>
      let digits := rest.takeWhile fun c => digitValue c < base || c = '_'
      if digits.isEmpty then none
      else some (⟨'0' :: letter :: digits, false⟩, rest.drop digits.length)
    | none =>
      if letter.isAlpha then none
      else numeralFrom? ⟨false, false, false, false⟩ ('0' :: letter :: rest)
  | text => numeralFrom? ⟨false, false, false, false⟩ text

/-- The number at the head of a text. After a sign only decimal digits stand. -/
def numeral? : List Char → Option (Numeral × List Char)
  | c :: rest =>
    if c = '+' || c = '-' then
      (numeralFrom? ⟨false, false, false, false⟩ rest).map fun r => (⟨c :: r.1.text, r.1.fraction⟩, r.2)
    else unsigned? (c :: rest)
  | [] => none

/-! ## Judging -/

/-- What a number can be taken for. -/
inductive NumberKind
  /-- An integer of 64 bits with a sign, or a fraction. -/
  | ordinary
  /-- An integer that takes all 64 bits and has no sign. -/
  | unsignedWord
deriving DecidableEq, Repr

/-- Every underscore has a digit before it and something after it. -/
def underscoresFit (isDigit : Char → Bool) (afterDigit : Bool) : List Char → Bool
  | [] => true
  | c :: rest =>
    (c ≠ '_' || (afterDigit && !rest.isEmpty)) && underscoresFit isDigit (isDigit c) rest

/-- The base of an integer and its digits. A zero before other decimal digits is refused if three
    characters or more are left without the underscores. -/
def integerBase? (digits : List Char) : Option (Nat × List Char) :=
  match digits with
  | '0' :: letter :: d :: rest => (base? letter).map (·, d :: rest)
  | _ => some (10, digits)

/-- What an integer is, by its sign and its digits. -/
def integerKind? (base : Nat) (digits : List Char) : Option NumberKind :=
  let signed := match digits with
    | '-' :: rest => (digitsValue? base rest).map fun n => -(n : Int)
    | '+' :: rest => (digitsValue? base rest).map fun n => (n : Int)
    | rest => (digitsValue? base rest).map fun n => (n : Int)
  match signed with
  | none => none
  | some n =>
    if fitsWord n then some .ordinary
    else if 0 ≤ n && n < 2 * (wordRange : Int) && digits.head? ≠ some '+' then some .unsignedWord
    else none

/-- What a number is, unless it is malformed or out of range. -/
def Numeral.kind? (n : Numeral) : Option NumberKind :=
  let digits := n.text.filter (· ≠ '_')
  if n.fraction then
    if underscoresFit isDecimal false n.text && ((Decimal.read? digits).bind Decimal.binary?).isSome then
      some .ordinary
    else none
  else
    match integerBase? digits with
    | none => none
    | some (base, digits) =>
      let isDigit (c : Char) : Bool := if base = 16 then digitValue c < 16 else isDecimal c
      if underscoresFit isDigit false n.text then integerKind? base digits else none

end Toml
end LetterGrammar
