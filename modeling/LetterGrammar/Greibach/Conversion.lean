import LetterGrammar.Grammar.Classification
import LetterGrammar.Greibach.Allocator
import LetterGrammar.Greibach.Leading
import LetterGrammar.Greibach.Trace

/-!
# Conversion to Greibach form

The conversion works on a table of rules in ranked order.

1. The `n` nonterminals get the last `n` letters, in order; a nonterminal's rank is its position.
2. Rank by rank, the leading lower ranks of bodies are replaced by their bodies, and left
   recursion `X → X α | β` becomes `X → β | β B` and `B → α | α B` with a fresh letter `B`.
3. From the highest rank down, and then for the fresh letters from the last one back, leading
   nonterminals are replaced by their bodies, so that every body starts with a terminal.
4. Nonterminals that cannot be reached from the start symbol are left out.

## Contents

- **`Conversion`**: the table, the ranked and the fresh nonterminals.
- **`Conversion.assign`**, **`eliminate`**, **`substitute`**, **`assemble`**: the four steps.
- **`convert`**: all of them, on any grammar.
- **`Chomsky.toGreibach`**: the conversion of a Chomsky grammar, with settings.
-/

namespace LetterGrammar

/-- The state of a conversion. -/
structure Conversion where
  /-- The renamed nonterminals, in rank order. -/
  ranked : List Symbol
  /-- The fresh nonterminals, in the order of their creation. -/
  auxiliary : List Symbol
  rules : RuleTable
  allocator : Allocator
deriving Repr

namespace Conversion

/-! ## Ranks -/

/-- The last `n` letters, in order. -/
def lastLetters (n : Nat) : List Symbol :=
  (List.range n).map fun (i : Nat) => ⟨90 - n + 1 + i⟩

/-- A symbol under the renaming of one list to another, itself if it is not in the first list. -/
def rename (names : List (Symbol × Symbol)) (s : Symbol) : Symbol :=
  (names.lookup s).getD s

/-- The nonterminals of the parts with their new letters. -/
def newNames (p : Parts) : List (Symbol × Symbol) :=
  p.nonterminals.zip (lastLetters p.nonterminals.length)

/-- The renamed rules, the letters below them being free. -/
def assign (p : Parts) : Conversion where
  ranked := lastLetters p.nonterminals.length
  auxiliary := []
  rules := p.entries.map fun e =>
    (rename (newNames p) e.1, e.2.map fun b => b.map (rename (newNames p)))
  allocator := .start ⟨90 - p.nonterminals.length⟩ (lastLetters p.nonterminals.length)

/-! ## Left recursion -/

/-- The fault of a nonterminal that has an empty body. -/
def emptyFlaw? (nt : Symbol) : Body → Option Fault
  | [] => some (broken (nt.text ++ " has an empty production"))
  | _ :: _ => none

/-- The bodies of the nonterminal of rank `i`, expanded until none starts with a lower rank. An expanded
    body starts with a higher rank than before, so `i + 1` rounds are enough, unless a lower rank has
    itself for a body. -/
def raise (c : Conversion) (i : Nat) (nt : Symbol) : Except Fault (List Body) :=
  settle (fun s => (c.ranked.take i).contains s) (emptyFlaw? nt)
    (broken ("elimination on " ++ nt.text ++ " does not terminate")) c.rules (i + 1)
    (c.rules.bodies nt)

/-- The bodies that do not start with the nonterminal. -/
def baseBodies (nt : Symbol) (bodies : List Body) : List Body :=
  bodies.filter fun b => !startsIn (· == nt) b

/-- What follows the nonterminal in the bodies that start with it, where anything does. -/
def recursiveTails (nt : Symbol) (bodies : List Body) : List Body :=
  bodies.filterMap fun b =>
    match b with
    | x :: y :: rest => if x == nt then some (y :: rest) else none
    | _ => none

/-- Replaces the left recursion of a nonterminal by right recursion through a fresh one. -/
def unwind (on : Bool) (c : Conversion) (nt : Symbol) : Traced Conversion :=
  let base := baseBodies nt (c.rules.bodies nt)
  let recursive := recursiveTails nt (c.rules.bodies nt)
  if recursive.isEmpty then pure c
  else if base.isEmpty then
    .silently (.error (broken (nt.text ++ " is left recursive without a base production")))
  else
    match c.allocator.allocate with
    | (.error f, _) => .silently (.error f)
    | (.ok aux, allocator) => do
      report on (.fresh nt aux)
      report on (.rules nt (Body.withSuffix base aux))
      report on (.rules aux (Body.withSuffix recursive aux))
      pure {
        ranked := c.ranked
        auxiliary := c.auxiliary ++ [aux]
        rules := (c.rules.set nt (Body.withSuffix base aux)).set aux (Body.withSuffix recursive aux)
        allocator := allocator }

/-- Both parts of the elimination for the nonterminal of rank `i`. -/
def eliminateAt (on : Bool) (c : Conversion) (i : Nat) (nt : Symbol) : Traced Conversion := do
  let bodies ← Traced.silently (c.raise i nt)
  report on (.rules nt bodies)
  unwind on { c with rules := c.rules.set nt bodies } nt

/-- The elimination for the given ranks, in order. -/
def eliminateAll (on : Bool) (c : Conversion) : List (Symbol × Nat) → Traced Conversion
  | [] => pure c
  | (nt, i) :: rest => do
    let c' ← eliminateAt on c i nt
    eliminateAll on c' rest

/-- The elimination for all ranks. -/
def eliminate (on : Bool) (c : Conversion) : Traced Conversion := do
  report on .eliminatingRecursion
  eliminateAll on c c.ranked.zipIdx

/-! ## Leading nonterminals -/

/-- The fault of a nonterminal that has an empty body or a body that starts with itself. -/
def recursionFlaw? (nt : Symbol) : Body → Option Fault
  | [] => some (broken (nt.text ++ " has an empty production"))
  | x :: _ => if x = nt then some (broken (nt.text ++ " is still left recursive")) else none

/-- The bodies of a nonterminal, expanded until each starts with a terminal. -/
def ground (c : Conversion) (nt : Symbol) : Except Fault (List Body) :=
  settle Symbol.isUpper (recursionFlaw? nt)
    (broken ("substitution on " ++ nt.text ++ " does not terminate")) c.rules (c.rules.length + 1)
    (c.rules.bodies nt)

/-- The substitution for the given nonterminals, in order. -/
def substituteAll (on : Bool) (c : Conversion) : List Symbol → Traced Conversion
  | [] => pure c
  | nt :: rest => do
    let bodies ← Traced.silently (c.ground nt)
    report on (.rules nt bodies)
    substituteAll on { c with rules := c.rules.set nt bodies } rest

/-- The substitution for all nonterminals, the ranked ones from the highest rank down, then the fresh
    ones from the last one back. -/
def substitute (on : Bool) (c : Conversion) : Traced Conversion := do
  report on .substitutingLeading
  substituteAll on c (c.ranked.reverse ++ c.auxiliary.reverse)

/-! ## Assembly -/

/-- The nonterminals of the table: ranked, then fresh. -/
def heads (c : Conversion) : List Symbol :=
  c.ranked ++ c.auxiliary

/-- The nonterminal can be reached from the first rank. -/
def keeps (c : Conversion) (nt : Symbol) : Bool :=
  match c.ranked with
  | [] => false
  | first :: _ => (c.rules.reachable first).contains nt

/-- The parts of the result: reachable nonterminals with their bodies in canonical order. -/
def result (c : Conversion) (terminals : List Symbol) : Parts where
  terminals := terminals
  nonterminals := c.heads.filter c.keeps
  productions := (c.heads.filter c.keeps).map fun nt => Body.canonical (c.rules.bodies nt)

/-- A fault of the result is a fault of the conversion. -/
def ofResult {α : Type} (r : Except Fault α) : Except Fault α :=
  r.mapError fun f => .conversion .internalInvariant "" (some f)

/-- Reports the given events in order. -/
def reportAll (on : Bool) : List Event → Traced Unit
  | [] => pure ()
  | e :: rest => do
    report on e
    reportAll on rest

/-- Leaves out unreachable nonterminals and verifies the result. -/
def assemble (on : Bool) (c : Conversion) (terminals : List Symbol) : Traced Greibach := do
  reportAll on ((c.heads.filter fun nt => !c.keeps nt).map Event.pruned)
  let g ← Traced.silently (ofResult (Grammar.build (c.result terminals)))
  Traced.silently (ofResult g.asGreibach)

end Conversion

/-! ## The conversion -/

/-- Converts any grammar, tracing if `on`. A grammar without nonterminals has nothing to convert. -/
def convert (on : Bool) (g : Grammar) : Traced Greibach :=
  let c := Conversion.assign g.toParts
  if g.nonterminals.isEmpty then Conversion.assemble on c g.terminals
  else do
    report on .assigningRanks
    Conversion.reportAll on ((Conversion.newNames g.toParts).map fun e => Event.renamed e.1 e.2)
    let c ← c.eliminate on
    let c ← c.substitute on
    c.assemble on g.terminals

/-- How a conversion is run. -/
structure Settings where
  traced : Bool
deriving DecidableEq, Repr

/-- A change of the settings, which may be refused. -/
abbrev Setting := Settings → Except Fault Settings

/-- Turns tracing on. -/
def Setting.trace : Setting := fun _ => .ok ⟨true⟩

/-- Converts a grammar under settings made one after another. -/
def convertWith (settings : List Setting) (g : Grammar) : Traced Greibach := do
  let s ← Traced.silently (settings.foldlM (fun s change => change s) (⟨false⟩ : Settings))
  convert s.traced g

/-- Converts a grammar in Chomsky form to Greibach form. -/
def Chomsky.toGreibach (c : Chomsky) (settings : List Setting) : Traced Greibach :=
  convertWith settings c.grammar

end LetterGrammar
