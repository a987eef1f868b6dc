/-!
# Texts read from bytes

A file is a sequence of bytes that need not be UTF-8. It is read as a list of glyphs: a glyph is a
character, or a stray byte that belongs to no valid UTF-8 sequence. No byte is lost, so places can be
counted in bytes and in characters. A stray byte counts as one character and reads as the replacement
character.

## Contents

- **`Glyph`**: its character, its size and its bytes.
- **`Glyph.ofString`**, **`Glyph.decode`**, **`Glyph.ofBytes`**: the glyphs of a text, of bytes, of a file.
- **`Glyph.text`**: the characters of a list of glyphs.
-/

namespace LetterGrammar

/-- The character that stands for what is no character. -/
def replacementChar : Char := '\uFFFD'

/-- What a file is made of: characters, and bytes that belong to none. -/
inductive Glyph
  | scalar (c : Char)
  | stray (byte : UInt8)
deriving DecidableEq, Repr

namespace Glyph

/-- The character a glyph reads as. -/
def char : Glyph → Char
  | scalar c => c
  | stray _ => replacementChar

/-- The number of bytes a glyph takes in its file. -/
def size : Glyph → Nat
  | scalar c => c.utf8Size
  | stray _ => 1

/-- The bytes of a glyph in its file. -/
def fileBytes : Glyph → List UInt8
  | scalar c => String.utf8EncodeChar c
  | stray b => [b]

/-- The bytes of a list of glyphs. -/
def allBytes (gs : List Glyph) : List UInt8 :=
  gs.flatMap fileBytes

/-! ## Decoding -/

/-- A continuation byte of a UTF-8 sequence. -/
def isTail (b : UInt8) : Bool :=
  0x80 ≤ b && b ≤ 0xBF

/-- The six payload bits of a continuation byte. -/
def tailBits (b : UInt8) : Nat :=
  b.toNat % 64

/-- The second byte of a sequence of three: the first byte narrows its range, so that no short code
    and no surrogate is spelled. -/
def isSecondOfThree (a b : UInt8) : Bool :=
  if a = 0xE0 then 0xA0 ≤ b && b ≤ 0xBF
  else if a = 0xED then 0x80 ≤ b && b ≤ 0x9F
  else isTail b

/-- The second byte of a sequence of four: the first byte narrows its range, so that no short code and
    no code above U+10FFFF is spelled. -/
def isSecondOfFour (a b : UInt8) : Bool :=
  if a = 0xF0 then 0x90 ≤ b && b ≤ 0xBF
  else if a = 0xF4 then 0x80 ≤ b && b ≤ 0x8F
  else isTail b

/-- The first glyph of the bytes `a :: rest`. -/
def first (a : UInt8) (rest : List UInt8) : Glyph :=
  if a < 0x80 then scalar (Char.ofNat a.toNat)
  else if 0xC2 ≤ a && a ≤ 0xDF then
    match rest with
    | b :: _ =>
      if isTail b then scalar (Char.ofNat (a.toNat % 32 * 64 + tailBits b)) else stray a
    | _ => stray a
  else if 0xE0 ≤ a && a ≤ 0xEF then
    match rest with
    | b :: c :: _ =>
      if isSecondOfThree a b && isTail c then
        scalar (Char.ofNat ((a.toNat % 16 * 64 + tailBits b) * 64 + tailBits c))
      else stray a
    | _ => stray a
  else if 0xF0 ≤ a && a ≤ 0xF4 then
    match rest with
    | b :: c :: d :: _ =>
      if isSecondOfFour a b && isTail c && isTail d then
        scalar (Char.ofNat (((a.toNat % 8 * 64 + tailBits b) * 64 + tailBits c) * 64 + tailBits d))
      else stray a
    | _ => stray a
  else stray a

/-- The glyphs of a byte sequence, passing over the `skip` bytes that belong to the glyph before. -/
def decodeFrom (skip : Nat) : List UInt8 → List Glyph
  | [] => []
  | a :: rest =>
    match skip with
    | n + 1 => decodeFrom n rest
    | 0 =>
      let g := first a rest
      g :: decodeFrom (g.size - 1) rest

/-- The glyphs of a byte sequence. -/
def decode (data : List UInt8) : List Glyph :=
  decodeFrom 0 data

/-- The glyphs of a file. -/
def ofBytes (data : ByteArray) : List Glyph :=
  decode data.data.toList

/-- The glyphs of a text. -/
def ofString (s : String) : List Glyph :=
  s.toList.map scalar

/-- The text that a list of glyphs reads as. -/
def text (gs : List Glyph) : String :=
  String.ofList (gs.map char)

end Glyph

end LetterGrammar
