import LetterGrammar.Ebnf.Parser
import LetterGrammar.Grammar.Basic

/-!
# Grammars from EBNF

An expression stands for a finite set of bodies, unless it has a repetition or a range. Names are single
upper-case letters, literals are made of lower-case letters. Terminals are collected in the order of
their first use. The productions of a text are met in any order, and put in the order of their offsets
before they are looked at.

## Contents

- **`expand`**: the bodies of an expression, and the terminals met on the way.
- **`inTextOrder`**: productions in the order of the text.
- **`readAlong`**, **`read`**: the grammar of a text, for any walk through its productions.
-/

namespace LetterGrammar
namespace Ebnf

/-- The nonterminal a name stands for. -/
def nonterminal (place : Position) (name : String) : Except Fault Symbol :=
  match name.toList with
  | [c] =>
    if (Symbol.ofChar c).isUpper then .ok (Symbol.ofChar c) else .error (nameFault place name)
  | _ => .error (nameFault place name)
where
  /-- The fault of a name that is no nonterminal. -/
  nameFault (place : Position) (name : String) : Fault :=
    .plain (describe place ++ ": production name " ++ quote name
      ++ " must be a single uppercase letter")

/-- The body a literal stands for. -/
def literalBody (value : List Glyph) : Body :=
  value.map fun g => Symbol.ofChar g.char

/-- The terminals with those of a body added, each once. -/
def collect (terminals : List Symbol) (b : Body) : List Symbol :=
  terminals ++ distinctOn id terminals b

mutual

/-- The bodies an expression stands for, and the terminals collected before it and in it. -/
def expand : Expression → List Symbol → Except Fault (List Body × List Symbol)
  | .nothing, terminals => .ok ([[]], terminals)
  | .alternative members, terminals => expandAlternatives members terminals
  | .sequence members, terminals => expandSequence members terminals
  | .group body, terminals => expand body terminals
  | .option body, terminals =>
    match expand body terminals with
    | .error f => .error f
    | .ok (bodies, terminals) => .ok (bodies ++ [[]], terminals)
  | .name place text, terminals =>
    match nonterminal place text with
    | .error f => .error f
    | .ok nt => .ok ([[nt]], terminals)
  | .token place value, terminals =>
    if (literalBody value).all Symbol.isLower then
      .ok ([literalBody value], collect terminals (literalBody value))
    else
      .error (.plain (describe place ++ ": token " ++ quoteGlyphs value
        ++ " must consist of lowercase letters"))
  | .repetition place _, _ => .error (.plain (describe place ++ ": repetition is not supported"))
  | .range place, _ => .error (.plain (describe place ++ ": range is not supported"))
  | .bad place, _ => .error (.plain (describe place ++ ": unknown EBNF expression"))

/-- The bodies of all alternatives. -/
def expandAlternatives : List Expression → List Symbol → Except Fault (List Body × List Symbol)
  | [], terminals => .ok ([], terminals)
  | e :: rest, terminals =>
    match expand e terminals with
    | .error f => .error f
    | .ok (bodies, terminals) =>
      match expandAlternatives rest terminals with
      | .error f => .error f
      | .ok (more, terminals) => .ok (bodies ++ more, terminals)

/-- The bodies of a sequence: a body of its first member followed by a body of the others. -/
def expandSequence : List Expression → List Symbol → Except Fault (List Body × List Symbol)
  | [], terminals => .ok ([[]], terminals)
  | e :: rest, terminals =>
    match expand e terminals with
    | .error f => .error f
    | .ok (heads, terminals) =>
      match expandSequence rest terminals with
      | .error f => .error f
      | .ok (tails, terminals) => .ok (heads.flatMap fun h => tails.map (h ++ ·), terminals)

end

/-- The parts described by productions, added to those of the productions before. -/
def addProductions : List Production → Parts → Except Fault Parts
  | [], parts => .ok parts
  | p :: rest, parts =>
    match nonterminal p.place p.name with
    | .error f => .error f
    | .ok nt =>
      match expand p.body parts.terminals with
      | .error f => .error (.context p.name f)
      | .ok (bodies, terminals) =>
        addProductions rest
          ⟨terminals, parts.nonterminals ++ [nt], parts.productions ++ [Body.distinct bodies]⟩

/-- Productions by the offsets of their names. -/
def inTextOrder (ps : List Production) : List Production :=
  ps.mergeSort fun p q => p.place.offset ≤ q.place.offset

/-- The grammar of productions, which may come in any order: the first one in the text is that of the
    start symbol. -/
def grammarOf (ps : List Production) : Except Fault Grammar :=
  match addProductions (inTextOrder ps) ⟨[], [], []⟩ with
  | .error f => .error f
  | .ok parts => Grammar.build parts

/-- The grammar of a text in EBNF, its productions being met along a walk. -/
def readAlong (walk : Walk) (filename : String) (text : List Glyph) : Except Fault Grammar :=
  match parse filename text with
  | .error f => .error f
  | .ok ps => grammarOf (walk.order ps)

/-- The grammar of a text in EBNF. -/
def read (filename : String) (text : List Glyph) : Except Fault Grammar :=
  readAlong .asListed filename text

end Ebnf
end LetterGrammar
