import LetterGrammar.Proofs.Greibach.Shape

/-!
# What the elimination leaves

When the elimination is through with all ranks, the leading nonterminals of bodies only go up: a body of
a ranked nonterminal starts with a terminal or with a higher rank, and a body of a fresh nonterminal
starts with a rank. So the substitution, which goes down the ranks and turns to the fresh nonterminals
last, meets leading nonterminals only where all their bodies already start with terminals.

## Contents

- **`Ascending`**, **`Raised.ascending_state`**: the rules that the elimination leaves.
- **`OnePass`**, **`Raised.onePass`**: one pass is enough for each nonterminal of the substitution.
- **`eliminate_leaves_ascent`**: both, for every grammar in Chomsky form.
-/

namespace LetterGrammar
namespace Conversion

open RuleTable

/-! ## Rules that ascend -/

/-- The rules after the elimination, over the given terminals. -/
structure Ascending (terminals : List Symbol) (c : Conversion) : Prop where
  heads_upper : ∀ s ∈ c.heads, s.isUpper = true
  /-- A body of the nonterminal of rank `i` is a terminal or a higher rank, then nonterminals. Behind a
      higher rank the first of them is ranked, and so not a fresh one. -/
  ranked : ∀ (i : Nat) (nt : Symbol), c.ranked[i]? = some nt → ∀ b ∈ c.rules.bodies nt,
    ∃ x rest, b = x :: rest ∧ (∀ y ∈ rest, y ∈ c.heads) ∧
      (x ∈ terminals ∨ (∃ j : Nat, i < j ∧ c.ranked[j]? = some x) ∧
        ∃ y tail, rest = y :: tail ∧ y ∈ c.ranked ∧ y ∉ c.auxiliary)
  /-- A body of a fresh nonterminal is a ranked nonterminal, then nonterminals. -/
  auxiliary : ∀ aux ∈ c.auxiliary, ∀ b ∈ c.rules.bodies aux,
    ∃ x rest, b = x :: rest ∧ x ∈ c.ranked ∧ ∀ y ∈ rest, y ∈ c.heads

namespace Sound

variable {terminals : List Symbol} {c₀ c : Conversion} (hs : Sound terminals c₀ c) {s x : Symbol}
  {b : Body} (hb : b ∈ c.rules.bodies s) (hx : x ∈ b)
include hs hb hx

/-- An upper-case letter in a body is a nonterminal of the conversion. -/
theorem mem_heads_of_upper (hupper : x.isUpper = true) : x ∈ c.heads := by
  rcases hs.spelled s b hb x hx with ht | hh
  · have hlow := Symbol.isLower_eq_false_of_isUpper hupper
    rw [hs.terminals_lower x ht] at hlow
    cases hlow
  · exact hh

/-- A lower-case letter in a body is a terminal. -/
theorem mem_terminals_of_lower (hlower : x.isLower = true) : x ∈ terminals := by
  rcases hs.spelled s b hb x hx with ht | hh
  · exact ht
  · rw [hs.not_lower_of_mem_heads hh] at hlower
    cases hlower

end Sound

namespace Raised

variable {terminals : List Symbol} {c₀ c : Conversion}

/-- **Once all ranks are done, the rules ascend.** -/
theorem ascending_state (hs : Sound terminals c₀ c) (hi : Raised c.ranked.length c) :
    Ascending terminals c := by
  have hupper : ∀ s ∈ c.ranked, s.isUpper = true := fun s hm =>
    hs.heads_upper s (mem_heads_of_mem_ranked hm)
  refine ⟨hs.heads_upper, ?_, ?_⟩
  · intro i nt hnt b hb
    obtain ⟨hlt, hget⟩ := List.getElem?_eq_some_iff.mp hnt
    have hmem : nt ∈ c.ranked := List.mem_of_getElem? hnt
    have hrank : c.rank nt = i := by
      rw [← hget]
      exact hs.ranked_nodup.idxOf_getElem i hlt
    have hshape := hi.shaped nt hmem b hb
    cases b with
    | nil => exact absurd rfl hshape.ne_nil
    | cons x rest =>
        have htail : ∀ y ∈ rest, y ∈ c.heads := fun y hy =>
          hs.mem_heads_of_upper hb (List.mem_cons_of_mem x hy) (hshape.tail_upper hupper y hy)
        refine ⟨x, rest, rfl, htail, ?_⟩
        rcases hshape with hground | ⟨hx, hheaded⟩
        · exact Or.inl (hs.mem_terminals_of_lower hb List.mem_cons_self hground.1)
        · have hrise := hi.ascending nt x (hrank ▸ hlt) ⟨rest, hb⟩
          refine Or.inr ⟨⟨c.rank x, hrank ▸ hrise, List.getElem?_idxOf hx⟩, ?_⟩
          cases rest with
          | nil => exact absurd hheaded id
          | cons y tail =>
              exact ⟨y, tail, rfl, hheaded.1, fun hy => hs.ne_of_mem_auxiliary hheaded.1 hy rfl⟩
  · intro aux haux b hb
    have hheaded := hi.tails aux haux b hb
    cases b with
    | nil => exact absurd hheaded id
    | cons x rest =>
        refine ⟨x, rest, rfl, hheaded.1, fun y hy => ?_⟩
        exact hs.mem_heads_of_upper hb (List.mem_cons_of_mem x hy) (hheaded.2 y hy)

end Raised

/-! ## One pass -/

/-- One pass over the bodies of the nonterminal is enough for the substitution: it gives bodies that all
    start with terminals, and they are the outcome. Two rounds would do, since the second one finds
    nothing to replace. -/
structure OnePass (terminals : List Symbol) (c : Conversion) (nt : Symbol) : Prop where
  outcome : c.ground nt = .ok (c.pass nt)
  terminal_first : ∀ b ∈ c.pass nt, ∃ x rest, b = x :: rest ∧ x ∈ terminals
  rounds : ∀ stuck, settle Symbol.isUpper (recursionFlaw? nt) stuck c.rules 2 (c.rules.bodies nt) =
    .ok (c.pass nt)

variable {terminals : List Symbol} {c₀ c : Conversion} {done rest : List Symbol} {nt : Symbol}

/-- One pass is enough for the first in line. -/
theorem Lined.onePass (hs : Sound terminals c₀ c) (h : Lined done (nt :: rest) c) :
    OnePass terminals c nt := by
  have hnt : nt ∈ c.heads := h.heads nt (by simp)
  have hready := h.ready hs
  have hground := ground_eq_pass hs hnt hready
  refine ⟨hground, fun b hb => ?_, fun stuck => settle_eq_pass (hs.heads_upper nt hnt) hready stuck 0⟩
  -- the state after the pass is spelled in terminals and nonterminals like every other
  have hbodies : b ∈ (c.replaced nt (c.pass nt)).rules.bodies nt := by
    rw [show (c.replaced nt (c.pass nt)).rules.bodies nt = c.pass nt from bodies_set_self ..]
    exact hb
  have hshape := grounded_pass hready b hb
  cases b with
  | nil => exact absurd hshape id
  | cons x tail =>
      exact ⟨x, tail, rfl, (hs.ground hnt hground).mem_terminals_of_lower hbodies List.mem_cons_self
        hshape.1⟩

/-- **Each nonterminal of the substitution takes one pass**, in the state that those before it leave. -/
theorem Raised.onePass (on : Bool) (hs : Sound terminals c₀ c) (hi : Raised c.ranked.length c)
    (h : c.ranked.reverse ++ c.auxiliary.reverse = done ++ nt :: rest) :
    ∃ state, (substituteAll on c done).result = .ok state ∧ OnePass terminals state nt := by
  have hlined := hi.lined hs
  rw [h] at hlined
  obtain ⟨state, hok, hstate, _, hline⟩ := hlined.exists_substituteAll on hs
  exact ⟨state, hok, hline.onePass hstate⟩

end Conversion

open Conversion

/-! ## Grammars in Chomsky form -/

/-- **What the elimination leaves, and what it spares the substitution.** If the letters do not run out,
    the elimination of a grammar in Chomsky form ends in a state `mid` whose ranks are the last letters
    and whose rules ascend: a body of a rank starts with a terminal or a higher rank, the latter followed
    by another rank, and all after the first symbol are nonterminals; a body of a fresh letter is a rank
    with nonterminals after it. From then on every call of the substitution, in the state that the calls
    before it leave, needs one pass at most until all bodies start with terminals. -/
theorem eliminate_leaves_ascent (c : Chomsky) (on : Bool)
    (hletters : ∀ text, ((assign c.grammar.toParts).eliminate on).result ≠
      .error (.conversion .identifierSpaceExhausted text none)) :
    ∃ mid, ((assign c.grammar.toParts).eliminate on).result = .ok mid ∧
      mid.ranked = lastLetters c.grammar.nonterminals.length ∧
      Ascending c.grammar.terminals mid ∧
      ∀ done nt rest, mid.ranked.reverse ++ mid.auxiliary.reverse = done ++ nt :: rest →
        ∃ state, (substituteAll on mid done).result = .ok state ∧
          OnePass c.grammar.terminals state nt := by
  have hs := sound_assign c.grammar
  have hr : (assign c.grammar.toParts).ranked = [] ++ (assign c.grammar.toParts).ranked := rfl
  rcases eliminateAll_cases on hs hr c.raised_assign (.start rfl) with
    ⟨mid, hmid, hs', hi, _⟩ | ⟨⟨text, hfail⟩, _⟩
  · have hi' : Raised mid.ranked.length mid := hs'.ranked_eq ▸ hi
    exact ⟨mid, hmid, hs'.ranked_eq, hi'.ascending_state hs', fun done nt rest h => hi'.onePass on hs' h⟩
  · exact absurd hfail (hletters text)

/-- A run that takes a fresh letter: all four nonterminals are left to the substitution, the start symbol
    third. -/
theorem eliminate_leaves_ascent_leadOnly :
    ∃ mid state, ((assign leadOnly.grammar.toParts).eliminate false).result = .ok mid ∧
      mid.ranked = Body.ofText "XYZ" ∧ mid.auxiliary = Body.ofText "W" ∧
      Ascending (Body.ofText "ab") mid ∧
      (substituteAll false mid (Body.ofText "ZY")).result = .ok state ∧
      OnePass (Body.ofText "ab") state ⟨88⟩ := by
  have hfresh : (((assign leadOnly.grammar.toParts).eliminate false).result.map auxiliary) =
      .ok (Body.ofText "W") := by rfl
  have hletters : ∀ text, ((assign leadOnly.grammar.toParts).eliminate false).result ≠
      .error (.conversion .identifierSpaceExhausted text none) := by
    intro text hfail
    rw [hfail] at hfresh
    cases hfresh
  obtain ⟨mid, hmid, hranked, hascending, hcalls⟩ := eliminate_leaves_ascent leadOnly false hletters
  rw [hmid] at hfresh
  injection hfresh with hfresh
  have hline : mid.ranked.reverse ++ mid.auxiliary.reverse =
      Body.ofText "ZY" ++ ⟨88⟩ :: Body.ofText "W" := by
    rw [hranked, hfresh]
    decide
  obtain ⟨state, hok, hpass⟩ := hcalls _ _ _ hline
  exact ⟨mid, state, hmid, hranked, hfresh, hascending, hok, hpass⟩

end LetterGrammar
