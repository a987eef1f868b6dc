import LetterGrammar.Grammar.RuleTable

/-!
# Shortest bodies

For every nonterminal, a body from which a word is derived by a tree of least height. Heights are found
by relaxation: passes over the rules that record a body whenever it improves on the height recorded
for its head, until a pass improves nothing. The order in which a pass walks the rules is free.

## Contents

- **`bodyHeight?`**: the height of a tree with a given body at its root.
- **`Heights`**: recorded heights and bodies.
- **`relax`**, **`relaxUntilStable`**: one pass, and passes until nothing improves.
- **`shortest`**: the recorded bodies, for any order of the walks.
-/

namespace LetterGrammar

/-- Recorded heights, each with the body that has it. -/
abbrev Heights := List (Symbol × Nat × Body)

namespace Heights

/-- The height recorded for a nonterminal. -/
def height? (h : Heights) (nt : Symbol) : Option Nat :=
  (h.lookup nt).map fun r => r.1

/-- The body recorded for a nonterminal. -/
def body? (h : Heights) (nt : Symbol) : Option Body :=
  (h.lookup nt).map fun r => r.2

/-- Records a height and a body in place of what was recorded before. -/
def record (h : Heights) (nt : Symbol) (height : Nat) (b : Body) : Heights :=
  (nt, height, b) :: h.filter fun r => r.1 ≠ nt

end Heights

/-- The height of a body: one, or one more than the greatest height of its nonterminals. Unknown while
    the height of one of them is. -/
def bodyHeight? (h : Heights) : Body → Option Nat
  | [] => some 1
  | s :: rest =>
    match bodyHeight? h rest with
    | none => none
    | some n => if s.isLower then some n else (h.height? s).map fun k => max n (k + 1)

/-- The body improves on what is recorded for the nonterminal. -/
def improves (h : Heights) (nt : Symbol) (n : Nat) : Bool :=
  match h.height? nt with
  | none => true
  | some k => n < k

/-- Records a body if it improves; says whether it did. -/
def relaxBody (nt : Symbol) (state : Heights × Bool) (b : Body) : Heights × Bool :=
  match bodyHeight? state.1 b with
  | none => state
  | some n => if improves state.1 nt n then (state.1.record nt n b, true) else state

/-- One pass over the rules in the given order; says whether something improved. -/
def relax (h : Heights) (rules : RuleTable) : Heights × Bool :=
  rules.foldl (fun state e => e.2.foldl (relaxBody e.1) state) (h, false)

/-- Passes until one improves nothing; the `k`-th pass walks the rules in the order `walk k`. -/
def relaxUntilStable (walk : Nat → RuleTable) : Nat → Nat → Heights → Heights
  | 0, _, h => h
  | passes + 1, k, h =>
    match relax h (walk k) with
    | (h', true) => relaxUntilStable walk passes (k + 1) h'
    | (h', false) => h'

/-- A shortest body for each of `count` nonterminals, whatever the order of the walks. After `k` passes
    the heights up to `k` are final and no least height exceeds `count`. -/
def shortest (count : Nat) (walk : Nat → RuleTable) : Heights :=
  relaxUntilStable walk (count + 1) 0 []

end LetterGrammar
