import LetterGrammar.Symbol

/-!
# Rule tables

A rule table gives every head its bodies. A head that is not in the table has none.

## Contents

- **`RuleTable.bodies`**, **`RuleTable.set`**: reading and replacing the bodies of a head.
- **`reachable`**: the symbols that can be reached from a start symbol.
-/

namespace LetterGrammar

/-- Heads with their bodies, each head once. -/
abbrev RuleTable := List (Symbol × List Body)

namespace RuleTable

/-- The bodies of a head. -/
def bodies (t : RuleTable) (head : Symbol) : List Body :=
  (t.lookup head).getD []

/-- The table with the bodies of a head replaced; a new head is added at the end. -/
def set (head : Symbol) (bodies : List Body) : RuleTable → RuleTable
  | [] => [(head, bodies)]
  | e :: rest => if e.1 = head then (head, bodies) :: rest else e :: set head bodies rest

/-! ## Reachability -/

/-- The nonterminals that occur in the bodies of a head and are not yet seen, each once. -/
def fresh (t : RuleTable) (seen : List Symbol) (head : Symbol) : List Symbol :=
  distinctOn id seen ((t.bodies head).flatten.filter Symbol.isUpper)

/-- A breadth-first walk: takes heads off the queue, and queues what their bodies bring up. -/
def walk (t : RuleTable) : Nat → List Symbol → List Symbol → List Symbol
  | 0, _, seen => seen
  | _, [], seen => seen
  | steps + 1, head :: queue, seen =>
    walk t steps (queue ++ t.fresh seen head) (seen ++ t.fresh seen head)

/-- The start symbol and the nonterminals that can be reached from it by going from a head to a
    nonterminal in one of its bodies. No symbol is queued twice and only 26 letters are nonterminals, so
    27 steps empty the queue. -/
def reachable (t : RuleTable) (start : Symbol) : List Symbol :=
  t.walk 27 [start] [start]

end RuleTable

end LetterGrammar
