import LetterGrammar.Text.Glyph
import LetterGrammar.Text.Printable

/-!
# Quoted texts

Messages show a foreign text between double quotes, on one line and free of invisible characters.

## Contents

- **`quoteChar`**: the spelling of one character inside the quotes.
- **`quote`**: the whole quoted text.
- **`quoteGlyphs`**: the same for what was read from a file.
-/

namespace LetterGrammar

/-- The digit of a value below sixteen, in lower case. -/
def hexDigit (n : Nat) : Char :=
  if n < 10 then Char.ofNat (48 + n) else Char.ofNat (87 + n)

/-- `n` in hexadecimal with `width` digits; higher digits are cut off. -/
def hexDigits : Nat → Nat → List Char
  | 0, _ => []
  | width + 1, n => hexDigits width (n / 16) ++ [hexDigit (n % 16)]

/-- The letter that follows the backslash in the short escape of a character, if it has one. -/
def shortEscape? (c : Char) : Option Char :=
  match c.toNat with
  | 7 => some 'a'
  | 8 => some 'b'
  | 9 => some 't'
  | 10 => some 'n'
  | 11 => some 'v'
  | 12 => some 'f'
  | 13 => some 'r'
  | 34 => some '"'
  | 92 => some '\\'
  | _ => none

/-- One character inside the quotes: a short escape, itself if printable, else its code in two, four
    or eight hexadecimal digits. -/
def quoteChar (c : Char) : List Char :=
  match shortEscape? c with
  | some e => ['\\', e]
  | none =>
    if isPrintable c then [c]
    else if c.toNat < 32 || c.toNat = 127 then '\\' :: 'x' :: hexDigits 2 c.toNat
    else if c.toNat < 65536 then '\\' :: 'u' :: hexDigits 4 c.toNat
    else '\\' :: 'U' :: hexDigits 8 c.toNat

/-- The text between double quotes, every character spelled by `quoteChar`. -/
def quote (s : String) : String :=
  String.ofList ('"' :: s.toList.flatMap quoteChar ++ ['"'])

/-- One glyph inside the quotes; a stray byte is spelled by its two hexadecimal digits. -/
def quoteGlyph : Glyph → List Char
  | .scalar c => quoteChar c
  | .stray b => '\\' :: 'x' :: hexDigits 2 b.toNat

/-- The glyphs between double quotes. -/
def quoteGlyphs (gs : List Glyph) : String :=
  String.ofList ('"' :: gs.flatMap quoteGlyph ++ ['"'])

end LetterGrammar
