import LetterGrammar.Document.Basic

/-!
# Dumps

A dump shows the fields of a document as nested values, one to a line. Empty fields are left out.

## Contents

- **`dump`**: the dump of a document.
-/

namespace LetterGrammar
namespace Command

/-- The lines of a text field. -/
def textField (name value : String) : List String :=
  if value.isEmpty then [] else ["  " ++ name ++ ": " ++ quote value ++ ","]

/-- The lines of an entry: its bodies under its name. -/
def entryLines (e : List Glyph × List String) : List String :=
  ("    " ++ quoteGlyphs e.1 ++ ": []string\x7b")
    :: e.2.map (fun b => "      " ++ quote b ++ ",") ++ ["    \x7d,"]

/-- The lines of the entries, in byte order. -/
def entriesField (d : Document) : List String :=
  if d.productions.isEmpty then []
  else "  Productions: map[string][]string\x7b" :: d.sortedEntries.flatMap entryLines ++ ["  \x7d,"]

/-- The dump of a document. -/
def dump (d : Document) : String :=
  String.join ((("&notation.Document\x7b" :: textField "Terminals" d.terminals)
    ++ textField "Nonterminals" d.nonterminals ++ entriesField d ++ ["\x7d"]).map fun l => l ++ "\n")

end Command
end LetterGrammar
