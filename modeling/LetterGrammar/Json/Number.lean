import LetterGrammar.Text.Shortest

/-!
# JSON numbers

A JSON number is a decimal number together with the text that spells it, which messages repeat.

## Contents

- **`JsonNumber`**: a number as written.
-/

namespace LetterGrammar

/-- A number, with the text that spells it. -/
structure JsonNumber where
  text : String
  value : Decimal
deriving DecidableEq, Repr

end LetterGrammar
