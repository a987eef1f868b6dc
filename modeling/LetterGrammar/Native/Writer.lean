import LetterGrammar.Grammar.Basic

/-!
# Grammars in the native notation

## Contents

- **`Native.pieces`**: the lines of a grammar, the declaration of its terminals first.
- **`Native.write`**: the whole text.
-/

namespace LetterGrammar
namespace Native

/-- An alternative: the empty body is written as a sign of its own. -/
def bodyText (b : Body) : String :=
  if b.isEmpty then "ε" else b.text

/-- The line of a rule. -/
def ruleLine (nt : Symbol) (bodies : List Body) : String :=
  nt.text ++ " -> " ++ String.intercalate " | " (bodies.map bodyText) ++ " ;\n"

/-- The lines of a grammar. -/
def pieces (g : Grammar) : List String :=
  ("terminals: " ++ Body.text g.terminals ++ " ;\n") :: g.entries.map fun e => ruleLine e.1 e.2

/-- The text of a grammar. -/
def write (g : Grammar) : String :=
  String.join (pieces g)

end Native
end LetterGrammar
