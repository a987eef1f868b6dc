import LetterGrammar.Grammar.Basic
import LetterGrammar.Grammar.RuleTable

/-!
# Derivations

A body derives a word when each of its terminals stands for itself and each of its nonterminals for a
word that one of its own bodies derives. The relation is the meaning of a table of rules; the algorithms
of the library are about it and do not use it.

## Contents

- **`RuleTable.Derives`**: the words of a body.
- **`derives_nil_iff`**, **`derives_append_iff`**: the words of the empty body and of two bodies
  in a row.
- **`Derives.all_isLower`**: a derived word has terminals only.
- **`Grammar.Generates`**: the words of a grammar.
-/

namespace LetterGrammar
namespace RuleTable

/-- The body derives the word under the rules of the table. -/
inductive Derives (t : RuleTable) : Body → Word → Prop
  | nil : Derives t [] []
  | terminal {s : Symbol} {b : Body} {w : Word} (hs : s.isLower = true) (hw : Derives t b w) :
      Derives t (s :: b) (s :: w)
  | nonterminal {s : Symbol} {c b : Body} {u w : Word} (hs : s.isLower = false)
      (hc : c ∈ t.bodies s) (hu : Derives t c u) (hw : Derives t b w) : Derives t (s :: b) (u ++ w)

variable {t : RuleTable}

/-- The empty body derives the empty word and no other. -/
@[simp] theorem derives_nil_iff {w : Word} : Derives t [] w ↔ w = [] := by
  constructor
  · intro h; cases h; rfl
  · rintro rfl; exact .nil

/-- What two bodies derive one after the other, they derive together. -/
theorem Derives.append {a b : Body} {u w : Word} (ha : Derives t a u) (hb : Derives t b w) :
    Derives t (a ++ b) (u ++ w) := by
  induction ha with
  | nil => exact hb
  | terminal hs _ ih => exact .terminal hs ih
  | nonterminal hs hc hu _ _ ih =>
    rw [List.append_assoc]
    exact .nonterminal hs hc hu ih

/-- A word of two bodies in a row is a word of the first followed by a word of the second. -/
theorem derives_append_iff {a b : Body} {w : Word} :
    Derives t (a ++ b) w ↔ ∃ u v, w = u ++ v ∧ Derives t a u ∧ Derives t b v := by
  constructor
  · intro h
    induction a generalizing w with
    | nil => exact ⟨[], w, rfl, .nil, h⟩
    | cons s a ih =>
      cases h with
      | terminal hs hw =>
        obtain ⟨u, v, rfl, hu, hv⟩ := ih hw
        exact ⟨s :: u, v, rfl, .terminal hs hu, hv⟩
      | @nonterminal _ c _ x _ hs hc hx hw =>
        obtain ⟨u, v, rfl, hu, hv⟩ := ih hw
        exact ⟨x ++ u, v, (List.append_assoc ..).symm, .nonterminal hs hc hx hu, hv⟩
  · rintro ⟨u, v, rfl, hu, hv⟩
    exact hu.append hv

/-- A terminal derives itself only. -/
theorem derives_terminal_iff {s : Symbol} (hs : s.isLower = true) {w : Word} :
    Derives t [s] w ↔ w = [s] := by
  constructor
  · intro h
    cases h with
    | terminal _ hw => rw [derives_nil_iff.mp hw]
    | nonterminal hs' => rw [hs] at hs'; cases hs'
  · rintro rfl; exact .terminal hs .nil

/-- A nonterminal derives what its bodies derive. -/
theorem derives_nonterminal_iff {s : Symbol} (hs : s.isLower = false) {w : Word} :
    Derives t [s] w ↔ ∃ c ∈ t.bodies s, Derives t c w := by
  constructor
  · intro h
    cases h with
    | terminal hs' => rw [hs] at hs'; cases hs'
    | nonterminal _ hc hu hw =>
      rw [derives_nil_iff.mp hw, List.append_nil]
      exact ⟨_, hc, hu⟩
  · rintro ⟨c, hc, hw⟩
    rw [← List.append_nil w]
    exact .nonterminal hs hc hw .nil

/-- A derived word has terminals only. -/
theorem Derives.all_isLower {b : Body} {w : Word} (h : Derives t b w) : ∀ s ∈ w, s.isLower = true := by
  induction h with
  | nil => intro s hs; cases hs
  | terminal hs _ ih => exact List.forall_mem_cons.mpr ⟨hs, ih⟩
  | nonterminal _ _ _ _ ihu ihw => exact List.forall_mem_append.mpr ⟨ihu, ihw⟩

end RuleTable

/-- The word is derived from the start symbol of the grammar. -/
def Grammar.Generates (g : Grammar) (w : Word) : Prop :=
  ∃ s, g.start? = some s ∧ RuleTable.Derives g.entries [s] w

end LetterGrammar
