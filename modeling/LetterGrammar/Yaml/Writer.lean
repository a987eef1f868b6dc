import LetterGrammar.Document.Basic

/-!
# Documents in YAML

Texts are written plainly, unless they are empty or would be read as something else than a text.

## Contents

- **`Yaml.scalarText`**: one text.
- **`Yaml.write`**: a whole document.
-/

namespace LetterGrammar
namespace Yaml

/-- The words that are read as truth values or as nothing. -/
def reservedWords : List String :=
  ["y", "Y", "yes", "Yes", "YES", "on", "On", "ON", "true", "True", "TRUE", "n", "N", "no", "No", "NO",
    "off", "Off", "OFF", "false", "False", "FALSE", "null", "Null", "NULL"]

/-- A text of letters. -/
def scalarText (s : String) : String :=
  if s.isEmpty || reservedWords.contains s then "\"" ++ s ++ "\"" else s

/-- The lines of an entry. -/
def entryText (e : List Glyph × List String) : String :=
  let name := scalarText (Glyph.text e.1)
  if e.2.isEmpty then "  " ++ name ++ ": []\n"
  else "  " ++ name ++ ":\n" ++ String.join (e.2.map fun b => "  - " ++ scalarText b ++ "\n")

/-- A document of letters. -/
def write (d : Document) : String :=
  "terminals: " ++ scalarText d.terminals ++ "\n"
  ++ "nonterminals: " ++ scalarText d.nonterminals ++ "\n"
  ++ "productions:" ++ (if d.productions.isEmpty then " \x7b\x7d\n"
    else "\n" ++ String.join (d.sortedEntries.map entryText))

end Yaml
end LetterGrammar
