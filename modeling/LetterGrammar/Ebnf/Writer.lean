import LetterGrammar.Grammar.Basic

/-!
# Grammars in EBNF

Terminals are quoted and nonterminals are bare names. The other alternatives of a nonterminal with an
empty body are put into an option:

    S = A B .
    C = [ "c" C ] .

## Contents

- **`Ebnf.alternativesText`**: the right side of a production.
- **`Ebnf.write`**: the whole text, one line per nonterminal.
-/

namespace LetterGrammar
namespace Ebnf

/-- A symbol of a body. -/
def symbolText (s : Symbol) : String :=
  if s.isLower then quote s.text else s.text

/-- A body that is not empty. -/
def sequenceText (b : Body) : String :=
  String.intercalate " " (b.map symbolText)

/-- The right side of the production with the given bodies. -/
def alternativesText (bodies : List Body) : String :=
  let written := (bodies.filter fun b => !b.isEmpty).map sequenceText
  if bodies.any List.isEmpty then
    if written.isEmpty then "\"\"" else "[ " ++ String.intercalate " | " written ++ " ]"
  else String.intercalate " | " written

/-- The line of a nonterminal. -/
def productionText (nt : Symbol) (bodies : List Body) : String :=
  nt.text ++ " = " ++ alternativesText bodies ++ " ."

/-- The text of a grammar. -/
def write (g : Grammar) : String :=
  String.intercalate "\n" (g.entries.map fun e => productionText e.1 e.2)

end Ebnf
end LetterGrammar
