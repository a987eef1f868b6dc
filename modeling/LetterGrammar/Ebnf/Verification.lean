import LetterGrammar.Ebnf.Parser
import LetterGrammar.Ebnf.Writer

/-!
# Verification of EBNF texts

A text is sound when every name it uses has a production and every production can be reached from the
start. A grammar is verified by way of its EBNF text.

Texts in general could have other faults: the start could lack a production, a name that starts with a
small letter could lead to one that does not, and a range could run backwards. None of these is looked
for, since the text of a grammar has none of them: its start symbol has a production, its names are
capital letters, and there are no ranges in it.

## Contents

- **`visit`**: the productions that can be reached, and the names that lead nowhere.
- **`faultsFrom`**: all that is wrong with productions, given the start.
- **`verifyAlong`**, **`verify`**: what is wrong with a grammar, for any walk through its productions.
-/

namespace LetterGrammar
namespace Ebnf

/-- The production with a name. -/
def findProduction? (ps : List Production) (name : String) : Option Production :=
  ps.find? fun p => p.name = name

/-- The complaint about a name without a production. -/
def missingText (place : Position) (name : String) : String :=
  describe place ++ ": missing production " ++ name

/-- The complaint about a production that cannot be reached. -/
def unreachableText (p : Production) : String :=
  describe p.place ++ ": " ++ p.name ++ " is unreachable"

/-- Walks through the productions named on the list, and through those they name. Returns the names
    reached and the complaints about missing ones. -/
def visit (ps : List Production) : Nat → List String → List String → List String →
    List String × List String
  | 0, _, reached, complaints => (reached, complaints)
  | _, [], reached, complaints => (reached, complaints)
  | steps + 1, name :: todo, reached, complaints =>
    match findProduction? ps name with
    | none => visit ps steps todo reached complaints
    | some p =>
      let missing := p.body.names.filter fun r => (findProduction? ps r.2).isNone
      let named := (p.body.names.filter fun r => (findProduction? ps r.2).isSome).map fun r => r.2
      let fresh := distinctOn id reached named
      visit ps steps (todo ++ fresh) (reached ++ fresh)
        (complaints ++ missing.map fun r => missingText r.1 r.2)

/-- All complaints about productions, the named one being the start. Each production is visited at most
    once. Those that are not reached are complained about along a walk. -/
def faultsFrom (walk : Walk) (ps : List Production) (start : String) : List String :=
  let (reached, complaints) := visit ps (ps.length + 1) [start] [start] []
  complaints ++ ((walk.order ps).filter fun p => !reached.contains p.name).map unreachableText

/-- What is wrong with the EBNF text of a grammar, if anything, its productions being met along a walk. -/
def verifyAlong (walk : Walk) (g : Grammar) : Except Fault Unit :=
  match g.start? with
  | none => .error (.plain "grammar has no start symbol")
  | some start =>
    match parse "<grammar>" (Glyph.ofString (write g)) with
    | .error f => .error f
    | .ok ps =>
      match faultsFrom walk ps start.text with
      | [] => .ok ()
      | complaints => .error (.complaints complaints)

/-- What is wrong with the EBNF text of a grammar, if anything. -/
def verify (g : Grammar) : Except Fault Unit :=
  verifyAlong .asListed g

end Ebnf
end LetterGrammar
