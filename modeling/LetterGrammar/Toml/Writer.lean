import LetterGrammar.Document.Basic

/-!
# Documents in TOML

## Contents

- **`Toml.write`**: a whole document. Names are in byte order, and productions have a table of their own.
-/

namespace LetterGrammar
namespace Toml

/-- A text of letters. -/
def textValue (s : String) : String :=
  "\"" ++ s ++ "\""

/-- The line of an entry. -/
def entryText (e : List Glyph × List String) : String :=
  "  " ++ Glyph.text e.1 ++ " = [" ++ String.intercalate ", " (e.2.map textValue) ++ "]\n"

/-- A document of letters. -/
def write (d : Document) : String :=
  "nonterminals = " ++ textValue d.nonterminals ++ "\n"
  ++ "terminals = " ++ textValue d.terminals ++ "\n"
  ++ "\n[productions]\n"
  ++ String.join (d.sortedEntries.map entryText)

end Toml
end LetterGrammar
