import LetterGrammar.Fault
import LetterGrammar.Grammar.Generating
import LetterGrammar.Text.Alphabet

/-!
# Grammars

A grammar is described by its parts: two alphabets and, for each nonterminal, a list of bodies. The
parts form a grammar when they break no rule; `Parts.fault?` finds the first broken rule, and a
`Grammar` carries the proof that there is none.

## Contents

- **`Parts`**: alphabets and bodies, with membership and look-up.
- **`Parts.fault?`**: the first broken rule.
- **`Grammar`**: parts without a fault, and whether they were verified to be regular.
- **`Grammar.build`**, **`Grammar.ofTexts`**: the grammar with given parts.
-/

namespace LetterGrammar

/-- The parts of a grammar: the `i`-th production set holds the bodies of the `i`-th nonterminal. -/
structure Parts where
  terminals : List Symbol
  nonterminals : List Symbol
  productions : List (List Body)
deriving DecidableEq, Repr

namespace Parts

/-- The symbol is a declared terminal. -/
def isTerminal (p : Parts) (s : Symbol) : Bool :=
  p.terminals.contains s

/-- The symbol is a declared nonterminal. -/
def isNonterminal (p : Parts) (s : Symbol) : Bool :=
  p.nonterminals.contains s

/-- The symbol is declared. -/
def declares (p : Parts) (s : Symbol) : Bool :=
  p.isTerminal s || p.isNonterminal s

/-- Each nonterminal with its bodies. -/
def entries (p : Parts) : List (Symbol × List Body) :=
  p.nonterminals.zip p.productions

/-- The bodies of a nonterminal, if it is declared. -/
def rules? (p : Parts) (nt : Symbol) : Option (List Body) :=
  p.entries.lookup nt

/-- The start symbol: the first nonterminal. -/
def start? (p : Parts) : Option Symbol :=
  p.nonterminals.head?

/-! ## Well-formed parts -/

/-- The rule broken by the bodies of one nonterminal: there is a body, and all symbols are declared. -/
def setFault? (p : Parts) (nt : Symbol) (bodies : List Body) : Option Violation :=
  if bodies.isEmpty then some (.found .emptyProductionSet nt ⟨0⟩)
  else
    match bodies.flatten.find? fun s => !p.declares s with
    | some s => some (.found .unknownSymbol nt s)
    | none => none

/-- The first broken rule. The alphabets are tested first, then the number of production sets, then the
    sets one by one, and last that every nonterminal derives a word. -/
def fault? (p : Parts) : Option Violation :=
  if !(lowerOnly (Body.chars p.terminals) && allDistinct (Body.chars p.terminals)) then
    some ⟨.invalidTerminals, none, none⟩
  else if !(upperOnly (Body.chars p.nonterminals) && allDistinct (Body.chars p.nonterminals)) then
    some ⟨.invalidNonterminals, none, none⟩
  else if p.productions.length ≠ p.nonterminals.length then
    some ⟨.productionCountMismatch, none, none⟩
  else
    match p.entries.findSome? fun e => p.setFault? e.1 e.2 with
    | some v => some v
    | none =>
      match nonGenerating? p.nonterminals p.productions with
      | some (nt :: _) => some (.found .nonGeneratingNonterminal nt ⟨0⟩)
      | _ => none

end Parts

/-! ## Grammars -/

/-- A context-free grammar: well-formed parts. `regular` says that the grammar was verified to be
    regular, not whether it is. -/
structure Grammar extends Parts where
  regular : Bool
  valid : toParts.fault? = none

namespace Grammar

/-- The grammar with the given parts, or the rule they break. -/
def build (p : Parts) : Except Fault Grammar :=
  match h : p.fault? with
  | some v => .error (.violation v)
  | none => .ok ⟨p, false, h⟩

/-- The grammar with alphabets and bodies given as texts. -/
def ofTexts (terminals nonterminals : String) (productions : List (List String)) :
    Except Fault Grammar :=
  build ⟨Body.ofText terminals, Body.ofText nonterminals, productions.map (·.map Body.ofText)⟩

/-- The grammar with its regularity mark set or cleared. -/
def withRegular (g : Grammar) (regular : Bool) : Grammar :=
  ⟨g.toParts, regular, g.valid⟩

end Grammar

end LetterGrammar
