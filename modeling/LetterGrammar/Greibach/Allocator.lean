import LetterGrammar.Fault

/-!
# Fresh nonterminals

A conversion needs letters that stand for no nonterminal yet. The allocator hands them out from a
starting letter downwards, passes over letters in use, and fails below `A`.

## Contents

- **`Allocator`**, **`Allocator.start`**: where to look next, and the letters in use.
- **`Allocator.allocate`**: the next free letter and the allocator after it.
-/

namespace LetterGrammar

/-- The number of letters that can name a nonterminal. -/
def nonterminalCapacity : Nat := 26

/-- The state of the hand-out: the letter to try next and the letters in use, each once. -/
structure Allocator where
  next : Symbol
  used : List Symbol
deriving DecidableEq, Repr

namespace Allocator

/-- An allocator that starts at `next` with the given letters in use. -/
def start (next : Symbol) (used : List Symbol) : Allocator :=
  ⟨next, distinctOn id [] used⟩

/-- The code just below `A`. Letters are counted from it: `A` is the first. -/
def floor : Int := 64

/-- The `k`-th letter. -/
def letter (k : Nat) : Symbol := ⟨floor + k⟩

/-- The number of the last free letter among the first `k`. -/
def lastFree? (used : List Symbol) : Nat → Option Nat
  | 0 => none
  | k + 1 => if used.contains (letter (k + 1)) then lastFree? used k else some (k + 1)

/-- How many letters there are up to the next one. -/
def room (a : Allocator) : Nat :=
  (a.next.code - floor).toNat

/-- The next free letter, with the allocator after it. A failed search leaves the allocator just below
    `A`, so that it fails again. -/
def allocate (a : Allocator) : Except Fault Symbol × Allocator :=
  match lastFree? a.used a.room with
  | some k => (.ok (letter k), ⟨⟨floor + k - 1⟩, letter k :: a.used⟩)
  | none =>
    (.error (.conversion .identifierSpaceExhausted
        (toString a.used.length ++ " nonterminal identifiers in use") none),
      ⟨if floor < a.next.code then ⟨floor⟩ else a.next, a.used⟩)

end Allocator

end LetterGrammar
