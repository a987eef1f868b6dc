import LetterGrammar.Symbol
import LetterGrammar.Text.Alphabet

/-!
# Generating nonterminals

A nonterminal is generating when it derives some word. The check works backwards: every nonterminal
starts as a suspect and is cleared once one of its bodies holds no suspect. What is left when no suspect
can be cleared derives no word. Suspects are looked for among the characters of the printed body.

## Contents

- **`clearPass`**: one pass over the nonterminals, each cleared on the spot.
- **`clearSuspects`**: passes until one clears nothing.
- **`nonGenerating?`**: the nonterminals that derive no word.
-/

namespace LetterGrammar

/-- The printed body holds a suspect. -/
def holdsSuspect (suspects : List Symbol) (b : Body) : Bool :=
  containsAny (b.chars.map Symbol.ofChar) suspects

/-- One pass over nonterminals with the positions of their production sets: a suspect with a body free
    of suspects is cleared at once. Fails at a suspect whose production set does not exist. -/
def clearPass (sets : List (List Body)) (suspects : List Symbol) :
    List (Symbol × Nat) → Option (List Symbol)
  | [] => some suspects
  | (nt, i) :: rest =>
    if suspects.contains nt then
      match sets[i]? with
      | none => none
      | some bodies =>
        if bodies.all (holdsSuspect suspects) then clearPass sets suspects rest
        else clearPass sets (suspects.filter (· ≠ nt)) rest
    else clearPass sets suspects rest

/-- Passes until one clears nothing. Each other pass clears a suspect, so as many passes as there are
    nonterminals are enough. -/
def clearSuspects (sets : List (List Body)) (heads : List (Symbol × Nat)) :
    Nat → List Symbol → Option (List Symbol)
  | 0, suspects => some suspects
  | passes + 1, suspects =>
    match clearPass sets suspects heads with
    | none => none
    | some left =>
      if left.length = suspects.length then some left
      else clearSuspects sets heads passes left

/-- The nonterminals that derive no word, in declaration order; the bodies of the `i`-th nonterminal
    are the `i`-th set. Fails if a set is missing where it is needed. -/
def nonGenerating? (nonterminals : List Symbol) (sets : List (List Body)) : Option (List Symbol) :=
  match clearSuspects sets nonterminals.zipIdx (nonterminals.length + 1) nonterminals with
  | none => none
  | some suspects => some (nonterminals.filter fun nt => suspects.contains nt)

end LetterGrammar
