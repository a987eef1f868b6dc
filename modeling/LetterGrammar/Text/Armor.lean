/-!
# Bytes as letters

Bytes are written with 64 letters, four for every three bytes; equals signs fill up the last four. Line
breaks do not count.

## Contents

- **`armorValue?`**: the six bits of a letter.
- **`unarmor?`**: the bytes that letters stand for.
-/

namespace LetterGrammar

/-- The six bits of a letter. -/
def armorValue? (c : Char) : Option Nat :=
  if c.isUpper then some (c.toNat - 65)
  else if c.isLower then some (c.toNat - 71)
  else if c.isDigit then some (c.toNat + 4)
  else if c = '+' then some 62
  else if c = '/' then some 63
  else none

/-- The bytes that six-bit values stand for. The last bits may be too few for a byte. -/
def packBits : List Nat → List UInt8
  | a :: b :: c :: d :: rest =>
    UInt8.ofNat (a * 4 + b / 16) :: UInt8.ofNat (b % 16 * 16 + c / 4) :: UInt8.ofNat (c % 4 * 64 + d)
      :: packBits rest
  | [a, b, c] => [UInt8.ofNat (a * 4 + b / 16), UInt8.ofNat (b % 16 * 16 + c / 4)]
  | [a, b] => [UInt8.ofNat (a * 4 + b / 16)]
  | _ => []

/-- The bytes that letters stand for. -/
def unarmor? (text : List Char) : Option (List UInt8) :=
  let letters := text.filter fun c => c ≠ '\n' && c ≠ '\r'
  let body := letters.reverse.dropWhile (· = '=')
  if letters.length % 4 ≠ 0 || body.length + 2 < letters.length then none
  else (body.reverse.mapM armorValue?).map packBits

end LetterGrammar
