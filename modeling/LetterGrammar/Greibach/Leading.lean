import LetterGrammar.Fault
import LetterGrammar.Grammar.RuleTable

/-!
# Replacing leading symbols

Two phases of the conversion replace the first symbol of a body by the bodies of that
symbol, over and over, until no body starts with a symbol to be replaced.

## Contents

- **`expandLeading`**: one body with its first symbol replaced.
- **`settle`**: rounds of replacement until none is needed.
-/

namespace LetterGrammar

/-- The body starts with a symbol of the class. -/
def startsIn (lead : Symbol → Bool) : Body → Bool
  | [] => false
  | x :: _ => lead x

/-- The bodies that stand for a body once its first symbol is replaced, if it is of the class. -/
def expandLeading (lead : Symbol → Bool) (rules : RuleTable) : Body → List Body
  | [] => [[]]
  | x :: rest => if lead x then (rules.bodies x).map (· ++ rest) else [x :: rest]

/-- Rounds of replacement until no body starts with a symbol of the class. Before each round the bodies
    are looked through for a fault; `stuck` is the fault if all rounds are used up. -/
def settle (lead : Symbol → Bool) (flaw? : Body → Option Fault) (stuck : Fault) (rules : RuleTable) :
    Nat → List Body → Except Fault (List Body)
  | 0, _ => .error stuck
  | rounds + 1, bodies =>
    match bodies.findSome? flaw? with
    | some f => .error f
    | none =>
      let next := Body.distinct (bodies.flatMap (expandLeading lead rules))
      if bodies.any (startsIn lead) then settle lead flaw? stuck rules rounds next else .ok next

/-- The fault of a conversion that finds its own rules broken. -/
def broken (text : String) : Fault :=
  .conversion .internalInvariant text none

end LetterGrammar
