import LetterGrammar.Form
import LetterGrammar.Position
import LetterGrammar.Symbol
import LetterGrammar.Text.Quoted

/-!
# Faults

What can go wrong, as data: a fault names its cause and may carry the fault behind it. The wording of
every fault is in one place, `Fault.message`.

## Contents

- **`Kind`**: the causes a caller can ask for.
- **`Violation`**: a broken rule of well-formed grammars, with the symbols involved.
- **`Fault`**: every failure of the library.
- **`Fault.message`**, **`Fault.kinds`**: the wording of a fault and the causes along its chain.
-/

namespace LetterGrammar

/-- The causes of failure that can be told apart. -/
inductive Kind
  | invalidTerminals
  | invalidNonterminals
  | productionCountMismatch
  | emptyProductionSet
  | unknownSymbol
  | nonGeneratingNonterminal
  | notRegular
  | notChomsky
  | notGreibach
  | identifierSpaceExhausted
  | internalInvariant
deriving DecidableEq, Repr

namespace Kind

/-- All causes, in the order in which they are reported. -/
def all : List Kind :=
  [invalidTerminals, invalidNonterminals, productionCountMismatch, emptyProductionSet, unknownSymbol,
    nonGeneratingNonterminal, notRegular, notChomsky, notGreibach, identifierSpaceExhausted,
    internalInvariant]

/-- The wording of a cause. -/
def text : Kind → String
  | invalidTerminals => "terminals must be unique lowercase letters"
  | invalidNonterminals => "nonterminals must be unique uppercase letters"
  | productionCountMismatch => "number of production sets does not match number of nonterminals"
  | emptyProductionSet => "nonterminal has no productions"
  | unknownSymbol => "production references a symbol outside the alphabet"
  | nonGeneratingNonterminal => "nonterminal derives no terminal string"
  | notRegular => "grammar is not regular"
  | notChomsky => "grammar is not in Chomsky normal form"
  | notGreibach => "grammar is not in Greibach normal form"
  | identifierSpaceExhausted => "no free nonterminal identifiers left"
  | internalInvariant => "internal invariant violated"

end Kind

/-- A broken rule of well-formed grammars: which rule, at which nonterminal, by which symbol. -/
structure Violation where
  kind : Kind
  nonterminal : Option Symbol := none
  symbol : Option Symbol := none
deriving DecidableEq, Repr

namespace Violation

/-- A symbol worth naming. The code zero stands for no symbol. -/
def named (s : Symbol) : Option Symbol :=
  if s.code = 0 then none else some s

/-- A violation found at a nonterminal and, possibly, a symbol. -/
def found (kind : Kind) (nonterminal symbol : Symbol) : Violation :=
  ⟨kind, named nonterminal, named symbol⟩

/-- The nonterminal, the broken rule and the symbol, as far as they are known. -/
def message (v : Violation) : String :=
  (match v.nonterminal with
    | some nt => nt.text ++ ": "
    | none => "")
  ++ v.kind.text
  ++ (match v.symbol with
    | some s => ": " ++ quote s.text
    | none => "")

end Violation

/-- A failure of the library. -/
inductive Fault
  /-- A bare cause. -/
  | cause (kind : Kind)
  /-- A failure known by its wording only. -/
  | plain (text : String)
  /-- The parts of a grammar are not well-formed. -/
  | violation (v : Violation)
  /-- A grammar lacks a form. -/
  | form (f : Form)
  /-- A conversion failed, by itself or because of a further fault. -/
  | conversion (kind : Kind) (text : String) (reason : Option Fault)
  /-- A fault met in a named context. -/
  | context (text : String) (reason : Fault)
  /-- A fault at a place of a file. -/
  | located (place : Position) (text : String) (reason : Option Fault)
  /-- A document is not of its format. -/
  | undecodable (text : String)
  /-- Several complaints about one file. -/
  | complaints (messages : List String)
deriving Repr

namespace Fault

/-- The cause of a missing form. Every grammar is context-free, so that form has no cause. -/
def kindOfForm? : Form → Option Kind
  | .contextFree => none
  | .regular => some .notRegular
  | .chomsky => some .notChomsky
  | .greibach => some .notGreibach

/-- The wording of a missing form. -/
def formText (f : Form) : String :=
  match kindOfForm? f with
  | some kind => kind.text
  | none => "grammar is not " ++ f.name

/-- The first of several complaints, and the number of the others. -/
def complaintsText : List String → String
  | [] => "no errors"
  | [m] => m
  | m :: rest => m ++ " (and " ++ toString rest.length ++ " more errors)"

/-- The wording of a fault: its own part, then the fault behind it. -/
def message : Fault → String
  | cause kind => kind.text
  | plain text => text
  | violation v => v.message
  | form f => formText f
  | conversion kind text reason =>
    "convert to Greibach form: " ++ kind.text
    ++ (if text.isEmpty then "" else ": " ++ text)
    ++ (match reason with
      | some r => ": " ++ message r
      | none => "")
  | context text reason => text ++ ": " ++ message reason
  | located place text reason =>
    place.describe ++ ": " ++ text
    ++ (match reason with
      | some r => ": " ++ message r
      | none => "")
  | undecodable text => text
  | complaints messages => complaintsText messages

/-- The causes along the chain of a fault. -/
def causes : Fault → List Kind
  | cause kind => [kind]
  | violation v => [v.kind]
  | form f => (kindOfForm? f).toList
  | conversion kind _ reason =>
    kind :: (match reason with
      | some r => causes r
      | none => [])
  | context _ reason => causes reason
  | located _ _ reason =>
    match reason with
    | some r => causes r
    | none => []
  | plain _ => []
  | undecodable _ => []
  | complaints _ => []

/-- The causes of a fault, each once, in the order of `Kind.all`. -/
def kinds (f : Fault) : List Kind :=
  Kind.all.filter fun k => (causes f).contains k

/-- A conversion failed somewhere along the chain. -/
def inConversion : Fault → Bool
  | conversion _ _ _ => true
  | context _ reason => inConversion reason
  | located _ _ (some r) => inConversion r
  | _ => false

/-- The missing form along the chain, if there is one. -/
def form? : Fault → Option Form
  | form f => some f
  | conversion _ _ (some r) => form? r
  | context _ reason => form? reason
  | located _ _ (some r) => form? r
  | _ => none

/-- The violation along the chain, if there is one. -/
def violation? : Fault → Option Violation
  | violation v => some v
  | conversion _ _ (some r) => violation? r
  | context _ reason => violation? reason
  | located _ _ (some r) => violation? r
  | _ => none

end Fault

end LetterGrammar
