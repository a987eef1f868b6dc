import LetterGrammar.Grammar.Basic
import LetterGrammar.Language.Choice
import LetterGrammar.Language.Enumeration
import LetterGrammar.Language.Shortest

/-!
# Sampling of words

A random word is derived from the start symbol: bodies are chosen at random down to a given depth of the
tree, and below it every nonterminal takes its shortest body, so that the derivation ends.

## Contents

- **`Sampler`**: rules, shortest bodies, and the way of choosing.
- **`Sampler.derive`**: a random word of a nonterminal at a depth.
- **`sample?`**: a random word of a grammar.
-/

namespace LetterGrammar

/-- What a derivation needs: the rules, the recorded shortest bodies, the depth down to which bodies are
    chosen, and a way of choosing a number below a bound. -/
structure Sampler (σ : Type) where
  rules : RuleTable
  heights : Heights
  maxDepth : Int
  choose : σ → Nat → Option (Nat × σ)

namespace Sampler

variable {σ : Type}

/-- The body for a nonterminal at a depth: chosen, or the shortest one. -/
def pick (m : Sampler σ) (nt : Symbol) (depth : Nat) (s : σ) : Option (Body × σ) :=
  if (depth : Int) < m.maxDepth then
    match m.choose s (m.rules.bodies nt).length with
    | none => none
    | some (i, s') => ((m.rules.bodies nt)[i]?).map fun b => (b, s')
  else (m.heights.body? nt).map fun b => (b, s)

/-- A random word of a nonterminal at a depth, derived by a tree of at most `levels` levels. -/
def derive (m : Sampler σ) : Nat → Nat → Symbol → σ → Option (Word × σ)
  | 0, _, _, _ => none
  | levels + 1, depth, nt, s => do
    let (body, s) ← m.pick nt depth s
    body.foldlM (fun (state : Word × σ) x =>
      if x.isLower then some (state.1 ++ [x], state.2)
      else (m.derive levels (depth + 1) x state.2).map fun r => (state.1 ++ r.1, r.2)) ([], s)

end Sampler

/-- The number of levels a sampled tree has at most: the levels of chosen bodies, and below them a
    shortest tree, in which no nonterminal repeats on a path. -/
def sampleLevels (g : Grammar) (maxDepth : Int) : Nat :=
  maxDepth.toNat + g.nonterminals.length + 1

/-- A random word of the grammar, the shortest bodies being found along the given walks. Without a start
    symbol it is the empty word. -/
def sampleAlong? {σ : Type} (g : Grammar) (walk : Nat → RuleTable) (choose : σ → Nat → Option (Nat × σ))
    (maxDepth : Int) (s : σ) : Option (Word × σ) :=
  match g.start? with
  | none => some ([], s)
  | some start =>
    Sampler.derive ⟨g.entries, shortest g.nonterminals.length walk, maxDepth, choose⟩
      (sampleLevels g maxDepth) 0 start s

/-- A random word of the grammar from a source of numbers. -/
def sample? (g : Grammar) (maxDepth : Int) (s : Source) : Option (Word × Source) :=
  sampleAlong? g (fun _ => g.entries) Source.below? maxDepth s

end LetterGrammar
