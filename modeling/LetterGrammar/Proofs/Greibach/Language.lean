import LetterGrammar.Proofs.Greibach.Totality

/-!
# The language of a converted grammar

Renaming, elimination, substitution and pruning each keep the words of the nonterminals they keep. So a
converted grammar derives from every surviving nonterminal what the given grammar derives from the
nonterminal it stands for, and as the start symbol survives, both grammars generate the same words.

## Contents

- **`start?_result`**: the first rank survives.
- **`KeepsWords`**, **`keepsWords_converted`**: what a conversion keeps.
- **`convert_keeps_words`**: the language is kept.
-/

namespace LetterGrammar
namespace Conversion

open RuleTable

/-! ## The language -/

/-- The first rank is the first nonterminal of the result. -/
theorem start?_result {c : Conversion} {first : Symbol} {rest terminals : List Symbol}
    (h : c.ranked = first :: rest) : (c.result terminals).start? = some first := by
  have hkeep : c.keeps first = true := (keeps_iff h).mpr (mem_reachable_iff.mpr .refl)
  unfold Parts.start? result heads
  rw [h, List.cons_append, List.filter_cons_of_pos hkeep]
  rfl

theorem start?_result_nil {c : Conversion} {terminals : List Symbol} (h : c.ranked = []) :
    (c.result terminals).start? = none := by
  have hnil : c.heads.filter c.keeps = [] := by
    rw [List.filter_eq_nil_iff]
    intro s _ hk
    unfold keeps at hk
    rw [h] at hk
    cases hk
  unfold Parts.start? result
  rw [hnil]
  rfl

end Conversion

open Conversion RuleTable

/-- With a start symbol, the words of the grammar are those of the start symbol. -/
theorem Grammar.generates_iff {g : Grammar} {s : Symbol} (h : g.start? = some s) {w : Word} :
    g.Generates w ↔ Derives g.entries [s] w := by
  unfold Grammar.Generates
  rw [h]
  constructor
  · rintro ⟨s', hs', hw⟩
    injection hs' with hs'
    exact hs' ▸ hw
  · exact fun hw => ⟨s, rfl, hw⟩

theorem Grammar.not_generates {g : Grammar} (h : g.start? = none) (w : Word) : ¬ g.Generates w := by
  rintro ⟨s, hs, _⟩
  rw [h] at hs
  cases hs

/-- The second grammar keeps the words of the first: every nonterminal whose letter survives derives in
    it what it derived before, the start symbol survives, and the grammars generate the same words. -/
structure KeepsWords (g r : Grammar) : Prop where
  words : ∀ i nt, g.nonterminals[i]? = some nt →
    rankLetter g.nonterminals.length i ∈ r.nonterminals →
      ∀ w, Derives g.entries [nt] w ↔ Derives r.entries [rankLetter g.nonterminals.length i] w
  start : r.start? = g.start?.map fun _ => rankLetter g.nonterminals.length 0
  generates : ∀ w, g.Generates w ↔ r.Generates w

section Converted

variable {on : Bool} {g : Grammar} {r : Greibach} (h : (convert on g).result = .ok r)
include h

/-- A surviving nonterminal of a converted grammar derives what it derived before. -/
theorem derives_converted_iff {i : Nat} {nt : Symbol} (hi : g.nonterminals[i]? = some nt)
    (hmem : rankLetter g.nonterminals.length i ∈ r.grammar.nonterminals) (w : Word) :
    Derives g.entries [nt] w ↔
      Derives r.grammar.entries [rankLetter g.nonterminals.length i] w := by
  have hp := g.wellFormed
  obtain ⟨c, hs, hparts⟩ := convert_ok_state h
  have hletter : rankLetter g.nonterminals.length i ∈ c.ranked := by
    rw [hs.ranked_eq]
    exact mem_lastLetters.mpr ⟨i, (List.getElem?_eq_some_iff.mp hi).1, rfl⟩
  rw [hparts] at hmem ⊢
  rw [derives_assign hp (List.mem_of_getElem? hi), rename_nonterminal hp.nonterminals_nodup hi,
    hs.words _ hletter, hs.derives_result hmem]

/-- The start symbol of a converted grammar is the renamed start symbol. -/
theorem start?_converted :
    r.grammar.start? = g.start?.map fun _ => rankLetter g.nonterminals.length 0 := by
  obtain ⟨c, hs, hparts⟩ := convert_ok_state h
  have hranked : c.ranked = lastLetters g.nonterminals.length := hs.ranked_eq
  rw [hparts]
  -- without nonterminals neither grammar has a start symbol
  cases hnts : g.nonterminals with
  | nil =>
      rw [hnts] at hranked
      rw [start?_result_nil hranked, Parts.start?, hnts]
      rfl
  | cons nt nts =>
      have hhead : c.ranked[0]? = some (rankLetter g.nonterminals.length 0) := by
        rw [hranked, getElem?_lastLetters (by rw [hnts]; exact Nat.succ_pos _)]
      rw [← hnts]
      cases hr : c.ranked with
      | nil => rw [hr] at hhead; cases hhead
      | cons first rest =>
          rw [hr] at hhead
          injection hhead with hfirst
          rw [start?_result hr, hfirst, Parts.start?, hnts]
          rfl

/-- **A converted grammar keeps the words** of the grammar it was converted from, whatever its form. -/
theorem keepsWords_converted : KeepsWords g r.grammar := by
  have hstart := start?_converted h
  refine ⟨fun i nt hi hmem w => derives_converted_iff h hi hmem w, hstart, fun w => ?_⟩
  cases hsg : g.start? with
  | none =>
      rw [hsg] at hstart
      exact ⟨fun hw => absurd hw (g.not_generates hsg w),
        fun hw => absurd hw (r.grammar.not_generates hstart w)⟩
  | some nt =>
      rw [hsg] at hstart
      have h0 : g.nonterminals[0]? = some nt := by rw [← List.head?_eq_getElem?]; exact hsg
      rw [Grammar.generates_iff hsg, Grammar.generates_iff hstart]
      exact derives_converted_iff h h0 (List.mem_of_mem_head? hstart) w

end Converted

/-- **The conversion keeps the language.** Whenever a conversion gives a grammar, be it of any valid
    grammar or, under any settings, of one in Chomsky form, every nonterminal that survives derives the
    words it derived before, and both grammars generate the same words. -/
theorem convert_keeps_words :
    (∀ (on : Bool) (g : Grammar) (r : Greibach), (convert on g).result = .ok r →
      KeepsWords g r.grammar) ∧
    (∀ (c : Chomsky) (settings : List Setting) (r : Greibach),
      (c.toGreibach settings).result = .ok r → KeepsWords c.grammar r.grammar) := by
  refine ⟨fun on g r h => keepsWords_converted h, fun c settings r h => ?_⟩
  rw [Chomsky.toGreibach_result, bind_eq_ok_iff] at h
  obtain ⟨s, _, h⟩ := h
  exact keepsWords_converted h

/-- Two nonterminals, each left recursive: `S → S A | a` and `A → A S | b`. -/
def pairParts : Parts where
  terminals := Body.ofText "ab"
  nonterminals := Body.ofText "SA"
  productions := [[Body.ofText "SA", Body.ofText "a"], [Body.ofText "AS", Body.ofText "b"]]

def pair : Chomsky := ⟨⟨pairParts, false, by decide⟩, by decide⟩

theorem convert_keeps_words_pair :
    ∃ r, (convert false pair.grammar).result = .ok r ∧ KeepsWords pair.grammar r.grammar := by
  rcases pair.convert_cases false with ⟨⟨r, hok⟩, _⟩ | ⟨_, hfull⟩
  · exact ⟨r, hok, convert_keeps_words.1 false pair.grammar r hok⟩
  · exact absurd hfull (by decide)

end LetterGrammar
