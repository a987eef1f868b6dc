/-!
# Digits

Digits to bases up to sixteen, and the characters that codes in hexadecimal stand for.

## Contents

- **`digitValue`**, **`digitsValue?`**: the value of a digit and of a run of digits.
- **`hexCode?`**, **`hexChar?`**: a code of some hexadecimal digits, and its character.
- **`separatorsFit`**: separators stand between digits only.
-/

namespace LetterGrammar

/-- The value of a hexadecimal digit; sixteen if the character is none. -/
def digitValue (c : Char) : Nat :=
  if '0' ≤ c && c ≤ '9' then c.toNat - 48
  else if 'a' ≤ c && c ≤ 'f' then c.toNat - 87
  else if 'A' ≤ c && c ≤ 'F' then c.toNat - 55
  else 16

/-- A decimal digit. -/
def isDecimal (c : Char) : Bool :=
  '0' ≤ c && c ≤ '9'

/-- The value of a run of digits to a base up to sixteen. -/
def digitsValue? (base : Nat) (text : List Char) : Option Nat :=
  text.foldlM (fun v c => if digitValue c < base then some (v * base + digitValue c) else none) 0

/-- The code spelled by the first `n` characters of a text, all hexadecimal digits. -/
def hexCode? (n : Nat) (text : List Char) : Option Nat :=
  if text.length < n then none else digitsValue? 16 (text.take n)

/-- The character whose code is spelled by the first `n` characters of a text. -/
def hexChar? (n : Nat) (text : List Char) : Option Char :=
  (hexCode? n text).bind fun code => if code.isValidChar then some (Char.ofNat code) else none

/-- A separator stands between digits only. `prev` is the kind of the character before: a digit, a
    separator or neither. -/
def separatorsFit (isDigit : Char → Bool) (prev : Char) : List Char → Bool
  | [] => prev ≠ '_'
  | c :: rest =>
    if c = '_' then prev = '0' && separatorsFit isDigit '_' rest
    else if isDigit c then separatorsFit isDigit '0' rest
    else prev ≠ '_' && separatorsFit isDigit '.' rest

end LetterGrammar
