import LetterGrammar.Text.Glyph

/-!
# The characters of a YAML file

A file is in UTF-8, or in UTF-16 if it starts with the byte order mark of that encoding. It is read in
pieces of 512 bytes, and each piece only when it is needed: what cannot be read does no harm before its
piece is asked for.

## Contents

- **`isAllowed`**: the characters that a YAML text may hold.
- **`Piece`**, **`pieces`**: the characters of a file, and what is none.
- **`Source`**, **`Source.ofFile`**: the characters up to the first piece that cannot be read.
-/

namespace LetterGrammar
namespace Yaml

/-- The character may appear in a YAML text. -/
def isAllowed (c : Char) : Bool :=
  c = '\t' || c = '\n' || c = '\r' || (0x20 ≤ c.toNat && c.toNat ≤ 0x7E) || c.toNat = 0x85
    || (0xA0 ≤ c.toNat && c.toNat ≤ 0xFFFD) || 0x10000 ≤ c.toNat

/-- A character in a file, or bytes that cannot be read as an allowed one. -/
structure Piece where
  char? : Option Char
  /-- The number of bytes that are looked at. -/
  width : Nat
  /-- The file has all these bytes. -/
  complete : Bool
deriving DecidableEq, Repr

namespace Piece

/-- A character of a file. -/
def ofChar (c : Char) (width : Nat) : Piece :=
  ⟨if isAllowed c then some c else none, width, true⟩

/-- The number of bytes that a first byte of UTF-8 asks for. -/
def widthAsked (b : UInt8) : Nat :=
  if b < 0xC0 then 1 else if b < 0xE0 then 2 else if b < 0xF0 then 3 else if b < 0xF8 then 4 else 1

/-- The characters of a file in UTF-8, up to the first byte that belongs to none. -/
def ofGlyphs : List Glyph → List Piece
  | [] => []
  | .scalar c :: rest => ofChar c c.utf8Size :: ofGlyphs rest
  | .stray b :: rest =>
    [⟨none, widthAsked b, widthAsked b ≤ 1 + (rest.map Glyph.size).sum⟩]

/-- The code of two bytes. -/
def unit (bigEndian : Bool) (a b : UInt8) : Nat :=
  if bigEndian then a.toNat * 256 + b.toNat else b.toNat * 256 + a.toNat

/-- The characters of a file in UTF-16, up to the first code that belongs to none. -/
def ofUnits (bigEndian : Bool) : List UInt8 → List Piece
  | [] => []
  | [_] => [⟨none, 2, false⟩]
  | a :: b :: rest =>
    let high := unit bigEndian a b
    if 0xDC00 ≤ high && high < 0xE000 then [⟨none, 2, true⟩]
    else if 0xD800 ≤ high && high < 0xDC00 then
      match rest with
      | c :: d :: rest =>
        let low := unit bigEndian c d
        if 0xDC00 ≤ low && low < 0xE000 then
          ofChar (Char.ofNat (0x10000 + (high - 0xD800) * 1024 + (low - 0xDC00))) 4
            :: ofUnits bigEndian rest
        else [⟨none, 4, true⟩]
      | _ => [⟨none, 4, false⟩]
    else ofChar (Char.ofNat high) 2 :: ofUnits bigEndian rest

end Piece

/-- The number of bytes that are read at once. -/
def blockSize : Nat := 512

/-- The characters of a file without its byte order mark, and the size of the mark. -/
def pieces (file : List Glyph) : List Piece × Nat :=
  match file with
  | .stray 0xFF :: .stray 0xFE :: rest => (Piece.ofUnits false (Glyph.allBytes rest), 2)
  | .stray 0xFE :: .stray 0xFF :: rest => (Piece.ofUnits true (Glyph.allBytes rest), 2)
  | .scalar '\uFEFF' :: rest => (Piece.ofGlyphs rest, 3)
  | _ => (Piece.ofGlyphs file, 0)

/-- How far a file can be read. -/
inductive Reach
  /-- To its end. -/
  | whole
  /-- Up to the end of a block. -/
  | blocks
  /-- Not even to the end of the block in which the characters stand. -/
  | spoiled
deriving DecidableEq, Repr

/-- The characters that can be read when `room` bytes of a block are left. -/
def reachable : Nat → List Piece → List Char × Reach
  | _, [] => ([], .whole)
  | room, p :: rest =>
    let newBlock := room < p.width || !p.complete
    let room := if newBlock then blockSize else room
    let spoiled := ([], if newBlock then Reach.blocks else Reach.spoiled)
    match p.char? with
    | none => spoiled
    | some c =>
      match reachable (room - p.width) rest with
      | (_, .spoiled) => spoiled
      | (cs, reach) => (c :: cs, reach)

/-- The characters of a file up to the first block that cannot be read. -/
structure Source where
  chars : List Char
  /-- All blocks can be read. -/
  whole : Bool
deriving DecidableEq, Repr

/-- The characters of a file. -/
def Source.ofFile (file : List Glyph) : Source :=
  let (ps, mark) := pieces file
  let (cs, reach) := reachable (blockSize - mark) ps
  ⟨cs, reach = .whole⟩

end Yaml
end LetterGrammar
