import LetterGrammar.Text.Digit
import LetterGrammar.Text.Glyph

/-!
# Texts in TOML

A text stands between double quotes, with escapes, or between single quotes, as it is; three quotes make
it a long one, which loses a line break at its very start. Each function reads what follows the opening
quotes and returns the text with what follows its closing quotes, or nothing if it is malformed.

## Contents

- **`isSpace`**, **`isBreak`**, **`isNameChar`**, **`isControl`**: the classes of characters.
- **`escape?`**: what an escape stands for.
- **`basicFrom?`**, **`literalFrom?`**: the two kinds of texts.
- **`text?`**: a text in any of its spellings.
-/

namespace LetterGrammar
namespace Toml

/-- A space or a tab. -/
def isSpace (c : Char) : Bool :=
  c = ' ' || c = '\t'

/-- A line break. -/
def isBreak (c : Char) : Bool :=
  c = '\n' || c = '\r'

/-- A character of a name without quotes. -/
def isNameChar (c : Char) : Bool :=
  c.isAlphanum || c = '_' || c = '-'

/-- A control character, which must not stand in a text with escapes. -/
def isControl (c : Char) : Bool :=
  c.toNat < 32 && c ≠ '\t'

/-- The text after its blanks. -/
def skipSpaces (text : List Char) : List Char :=
  text.dropWhile isSpace

/-! ## Escapes -/

/-- The character with a code; what is no code of a character gives the replacement character. -/
def codeChar (code : Nat) : Char :=
  if code.isValidChar then Char.ofNat code else replacementChar

/-- The character of a code escape of `n` hexadecimal digits, and the text after them. -/
def codeEscape? (n : Nat) (text : List Char) : Option (List Char × List Char) :=
  (hexCode? n text).map fun code => ([codeChar code], text.drop n)

/-- What an escape stands for, and the text after it. A backslash before blanks or line breaks takes them
    away. -/
def escape? : List Char → Option (List Char × List Char)
  | [] => none
  | c :: rest =>
    if isSpace c || isBreak c then some ([], rest.dropWhile fun x => isSpace x || isBreak x)
    else
      match c with
      | '"' => some (['"'], rest)
      | 'n' => some (['\n'], rest)
      | 'b' => some (['\x08'], rest)
      | 'f' => some (['\x0c'], rest)
      | '/' => some (['/'], rest)
      | 't' => some (['\t'], rest)
      | 'r' => some (['\r'], rest)
      | '\\' => some (['\\'], rest)
      | 'u' => codeEscape? 4 rest
      | 'U' => codeEscape? 8 rest
      | _ => none

/-! ## Texts -/

/-- A text with escapes up to its closing quotes. Line breaks may stand in it only with `breaks`. -/
def basicFrom? (closing : List Char) (breaks : Bool) : Nat → List Char → Option (List Char × List Char)
  | 0, _ => none
  | fuel + 1, text =>
    if closing.isPrefixOf text then some ([], text.drop closing.length)
    else
      match text with
      | [] => none
      | '\\' :: rest =>
        match escape? rest with
        | none => none
        | some (meant, rest) => (basicFrom? closing breaks fuel rest).map fun r => (meant ++ r.1, r.2)
      | c :: rest =>
        if isControl c && !(breaks && isBreak c) then none
        else (basicFrom? closing breaks fuel rest).map fun r => (c :: r.1, r.2)

/-- A text with escapes up to its closing quotes; every step takes a character. -/
def basic? (closing : List Char) (breaks : Bool) (text : List Char) : Option (List Char × List Char) :=
  basicFrom? closing breaks (text.length + 1) text

/-- A text without escapes up to its closing quotes. -/
def literalFrom? (closing : List Char) : List Char → Option (List Char × List Char)
  | [] => none
  | c :: rest =>
    if closing.isPrefixOf (c :: rest) then some ([], (c :: rest).drop closing.length)
    else (literalFrom? closing rest).map fun r => (c :: r.1, r.2)

/-- The text after a line break at its start. -/
def dropBreak : List Char → List Char
  | '\r' :: '\n' :: rest => rest
  | '\n' :: rest => rest
  | text => text

/-- A text in any of its four spellings, its quotes included. -/
def text? : List Char → Option (List Char × List Char)
  | '"' :: '"' :: '"' :: rest => basic? ['"', '"', '"'] true (dropBreak rest)
  | '"' :: rest => basic? ['"'] false rest
  | '\'' :: '\'' :: '\'' :: rest => literalFrom? ['\'', '\'', '\''] (dropBreak rest)
  | '\'' :: rest => literalFrom? ['\''] rest
  | _ => none

end Toml
end LetterGrammar
