/-!
# The byte order of texts

Texts are ordered by their UTF-8 bytes, read as numbers and compared lexicographically.

## Contents

- **`bytes`**: the UTF-8 bytes of a text.
- **`bytesLe`**: the order of texts by their bytes.
- **`occursIn`**: the search for bytes among others.
-/

namespace LetterGrammar

/-- The UTF-8 bytes of a text, given by its characters. -/
def bytes (cs : List Char) : List UInt8 :=
  cs.flatMap String.utf8EncodeChar

/-- The first text comes at or before the second one in the byte order. -/
def bytesLe (a b : List Char) : Bool :=
  decide (bytes a ≤ bytes b)

/-- The bytes stand somewhere in a row in the others. -/
def occursIn (part : List UInt8) : List UInt8 → Bool
  | [] => part.isEmpty
  | b :: rest => part.isPrefixOf (b :: rest) || occursIn part rest

end LetterGrammar
