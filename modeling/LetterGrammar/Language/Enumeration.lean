import LetterGrammar.Grammar.Basic
import LetterGrammar.Grammar.RuleTable

/-!
# Enumeration of words

The words of bounded length that a nonterminal derives. Starting from no words at all, every body adds
the words it spells to those of its nonterminal, over and over, until a round over all bodies adds
nothing. A round uses the words found earlier in it, so after `k` rounds at least the words with a
derivation tree of height at most `k` are known.

## Contents

- **`continuations`**, **`spellings`**: the words a body spells, given words for the nonterminals.
- **`addWords`**, **`wordRound`**, **`wordRounds`**: one body, one round, and rounds until nothing
  changes.
- **`enumerateFrom?`**, **`enumerate?`**: the words up to a length, in byte order.
-/

namespace LetterGrammar

/-- The words known for each nonterminal. -/
abbrev WordTable := RuleTable

/-- The words of length at most `maxLen` made of a word on the list and a word known for a symbol. -/
def continuations (known : WordTable) (maxLen : Nat) (starts : List Word) (s : Symbol) : List Word :=
  let ends := if s.isLower then [[s]] else known.bodies s
  Body.canonical ((starts.flatMap fun u => ends.map (u ++ ·)).filter fun w => w.length ≤ maxLen)

/-- The words of length at most `maxLen` that a body spells when its nonterminals are replaced by known
    words. The words are put together from the left, and a beginning that is too long is dropped at
    once. -/
def spellings (known : WordTable) (maxLen : Nat) (b : Body) : List Word :=
  b.foldl (continuations known maxLen) [[]]

/-- The words with those that a rule, a head and one of its bodies, adds to the words of the head. -/
def addWords (maxLen : Nat) (known : WordTable) (rule : Symbol × Body) : WordTable :=
  known.set rule.1 (Body.canonical (known.bodies rule.1 ++ spellings known maxLen rule.2))

/-- One round over all rules. What a rule adds is known to the rules after it. -/
def wordRound (entries : List (Symbol × List Body)) (maxLen : Nat) (known : WordTable) : WordTable :=
  (entries.flatMap fun e => e.2.map fun b => (e.1, b)).foldl (addWords maxLen) known

/-- Rounds until one changes nothing. -/
def wordRounds (entries : List (Symbol × List Body)) (maxLen : Nat) : Nat → WordTable → WordTable
  | 0, known => known
  | rounds + 1, known =>
    let next := wordRound entries maxLen known
    if next = known then known else wordRounds entries maxLen rounds next

/-- The words of length at most `maxLen` of all nonterminals. A word has a derivation tree in which no
    nonterminal repeats on a path without its word growing shorter, so the height of that tree, and with
    it the number of rounds, is bounded. -/
def wordsUpTo (g : Grammar) (maxLen : Nat) : WordTable :=
  wordRounds g.entries maxLen (g.nonterminals.length * (maxLen + 1) + 1)
    (g.nonterminals.map fun nt => (nt, []))

/-- The words of length at most `maxLen` derived from a nonterminal, in byte order. -/
def enumerateFrom? (g : Grammar) (start : Symbol) (maxLen : Int) : Option (List Word) :=
  if !g.isNonterminal start || maxLen < 0 then none
  else some ((wordsUpTo g maxLen.toNat).bodies start)

/-- The words of length at most `maxLen` derived from the start symbol. -/
def enumerate? (g : Grammar) (maxLen : Int) : Option (List Word) :=
  match g.start? with
  | none => none
  | some start => enumerateFrom? g start maxLen

end LetterGrammar
