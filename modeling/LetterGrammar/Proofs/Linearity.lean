import LetterGrammar.Proofs.Regular

/-!
# What the classification as regular decides

A grammar is classified by two scans over its bodies: one looks at the shape of every body, the other
collects the orientations that occur. Together they decide whether all bodies are right-linear or all are
left-linear. Neither scan depends on the order in which it meets the bodies, so a grammar written down in
another order is classified alike.

## Contents

- **`Parts.HasRightPair`**, **`Parts.HasLeftPair`**: an orientation occurs somewhere.
- **`Parts.RightShaped`**, **`Parts.LeftShaped`**: the bodies of the two kinds of regular grammars.
- **`WellFormed.isRegular_iff_scans`**, **`isRegular_iff`**: what the two scans decide together.
- **`Parts.Rearranged`**: the same parts written down in another order.
- **`classification_exact`**: the classification, and that it does not depend on the order.
-/

namespace LetterGrammar

/-! ## Orientations -/

namespace Linearity

theorem eq_right_iff {l : Linearity} : l = .right ↔ l.Covers .right ∧ ¬ l.Covers .left := by
  cases l <;> decide

theorem eq_left_iff {l : Linearity} : l = .left ↔ l.Covers .left ∧ ¬ l.Covers .right := by
  cases l <;> decide

theorem eq_none_iff {l : Linearity} : l = .none ↔ ¬ l.Covers .right ∧ ¬ l.Covers .left := by
  cases l <;> decide

/-- An orientation is known by the single ones it covers. -/
theorem eq_of_covers_iff {l m : Linearity} (h : ∀ o : Linearity, o.IsSingle → (l.Covers o ↔ m.Covers o)) :
    l = m := by
  have hright := h .right (.inl rfl)
  have hleft := h .left (.inr rfl)
  revert hright hleft
  cases l <;> cases m <;> decide

end Linearity

namespace Parts

/-- Some body is a terminal followed by a nonterminal. -/
def HasRightPair (p : Parts) : Prop :=
  ∃ bodies ∈ p.productions, ∃ b ∈ bodies, ∃ a x, b = [a, x] ∧ a ∈ p.terminals ∧ x ∈ p.nonterminals

/-- Some body is a nonterminal followed by a terminal. -/
def HasLeftPair (p : Parts) : Prop :=
  ∃ bodies ∈ p.productions, ∃ b ∈ bodies, ∃ x a, b = [x, a] ∧ x ∈ p.nonterminals ∧ a ∈ p.terminals

/-- The body is empty, a terminal, or a terminal followed by a nonterminal. -/
def RightShaped (p : Parts) (b : Body) : Prop :=
  b = [] ∨ (∃ a ∈ p.terminals, b = [a]) ∨ ∃ a x, b = [a, x] ∧ a ∈ p.terminals ∧ x ∈ p.nonterminals

/-- The body is empty, a terminal, or a nonterminal followed by a terminal. -/
def LeftShaped (p : Parts) (b : Body) : Prop :=
  b = [] ∨ (∃ a ∈ p.terminals, b = [a]) ∨ ∃ x a, b = [x, a] ∧ x ∈ p.nonterminals ∧ a ∈ p.terminals

variable {p : Parts}

theorem exists_mem_flatten_iff {P : Body → Prop} :
    (∃ b ∈ p.productions.flatten, P b) ↔ ∃ bodies ∈ p.productions, ∃ b ∈ bodies, P b := by
  constructor
  · rintro ⟨b, hb, hP⟩
    obtain ⟨bodies, hbodies, hmem⟩ := List.mem_flatten.mp hb
    exact ⟨bodies, hbodies, b, hmem, hP⟩
  · rintro ⟨bodies, hbodies, b, hb, hP⟩
    exact ⟨b, List.mem_flatten_of_mem hbodies hb, hP⟩

theorem covers_right_iff : p.linearity.Covers .right ↔ p.HasRightPair := by
  rw [covers_linearity_iff (.inl rfl), exists_mem_flatten_iff]
  simp only [covers_right_orientation_iff, isRightPair_iff]
  rfl

namespace WellFormed

variable (hp : p.WellFormed)
include hp

theorem covers_left_iff : p.linearity.Covers .left ↔ p.HasLeftPair := by
  rw [covers_linearity_iff (.inr rfl), exists_mem_flatten_iff]
  simp only [hp.covers_left_orientation_iff, isLeftPair_iff]
  rfl

/-- Where all bodies have the shape for one orientation, the other does not occur. -/
theorem not_hasLeftPair (h : ∀ bodies ∈ p.productions, ∀ b ∈ bodies, p.RightShaped b) :
    ¬ p.HasLeftPair := by
  rintro ⟨bodies, hbodies, b, hb, x, a, rfl, hx, ha⟩
  rcases h bodies hbodies _ hb with hnil | ⟨c, -, hone⟩ | ⟨c, y, hpair, hc, -⟩
  · cases hnil
  · cases hone
  · obtain ⟨rfl, -⟩ := List.cons.inj hpair
    exact Bool.eq_false_iff.mp (hp.nonterminal_not_lower hx) (hp.terminals_lower x hc)

theorem not_hasRightPair (h : ∀ bodies ∈ p.productions, ∀ b ∈ bodies, p.LeftShaped b) :
    ¬ p.HasRightPair := by
  rintro ⟨bodies, hbodies, b, hb, a, x, rfl, ha, hx⟩
  rcases h bodies hbodies _ hb with hnil | ⟨c, -, hone⟩ | ⟨y, c, hpair, hy, -⟩
  · cases hnil
  · cases hone
  · obtain ⟨rfl, -⟩ := List.cons.inj hpair
    exact Bool.eq_false_iff.mp (hp.nonterminal_not_lower hy) (hp.terminals_lower a ha)

/-- What the two scans ask for: every body has a regular shape, and not both orientations occur. -/
theorem isRegular_iff_scans :
    p.isRegular = true ↔
      (∀ bodies ∈ p.productions, ∀ b ∈ bodies, p.isRegularBody b = true) ∧
      ¬ (p.HasRightPair ∧ p.HasLeftPair) := by
  rw [isRegular, Bool.and_eq_true, List.all_eq_true, decide_eq_true_eq, Ne, Linearity.eq_mixed_iff,
    covers_right_iff, hp.covers_left_iff]
  refine and_congr_left fun _ => ⟨fun h bodies hbodies b hb => ?_, fun h b hb => ?_⟩
  · exact h b (List.mem_flatten_of_mem hbodies hb)
  · obtain ⟨bodies, hbodies, hmem⟩ := List.mem_flatten.mp hb
    exact h bodies hbodies b hmem

/-- **The two scans together** accept the right-linear and the left-linear grammars. -/
theorem isRegular_iff :
    p.isRegular = true ↔
      (∀ bodies ∈ p.productions, ∀ b ∈ bodies, p.RightShaped b) ∨
      (∀ bodies ∈ p.productions, ∀ b ∈ bodies, p.LeftShaped b) := by
  rw [hp.isRegular_iff_scans]
  constructor
  · rintro ⟨hshape, hmixed⟩
    -- without pairs of one orientation, every pair is of the other
    rcases not_and_or.mp hmixed with hright | hleft
    · right
      intro bodies hbodies b hb
      rcases isRegularBody_iff.mp (hshape bodies hbodies b hb) with hnil | hone | hpair | hpair
      · exact .inl hnil
      · exact .inr (.inl hone)
      · exact absurd ⟨bodies, hbodies, b, hb, isRightPair_iff.mp hpair⟩ hright
      · exact .inr (.inr (isLeftPair_iff.mp hpair))
    · left
      intro bodies hbodies b hb
      rcases isRegularBody_iff.mp (hshape bodies hbodies b hb) with hnil | hone | hpair | hpair
      · exact .inl hnil
      · exact .inr (.inl hone)
      · exact .inr (.inr (isRightPair_iff.mp hpair))
      · exact absurd ⟨bodies, hbodies, b, hb, isLeftPair_iff.mp hpair⟩ hleft
  · rintro (hshape | hshape)
    · refine ⟨fun bodies hbodies b hb => isRegularBody_iff.mpr ?_, fun h => ?_⟩
      · exact (hshape bodies hbodies b hb).imp_right (.imp_right fun h => .inl (isRightPair_iff.mpr h))
      · exact hp.not_hasLeftPair hshape h.2
    · refine ⟨fun bodies hbodies b hb => isRegularBody_iff.mpr ?_, fun h => ?_⟩
      · exact (hshape bodies hbodies b hb).imp_right (.imp_right fun h => .inr (isLeftPair_iff.mpr h))
      · exact hp.not_hasRightPair hshape h.1

end WellFormed

/-! ## Order -/

/-- Two scans of the same set of bodies over the same alphabets find the same orientation. -/
theorem linearity_congr {q : Parts} (hterm : q.isTerminal = p.isTerminal)
    (hnon : q.isNonterminal = p.isNonterminal)
    (hbodies : ∀ b, b ∈ q.productions.flatten ↔ b ∈ p.productions.flatten) :
    q.linearity = p.linearity := by
  have horient : q.orientation = p.orientation := by
    funext b
    unfold orientation isRightPair isLeftPair
    rw [hterm, hnon]
  refine Linearity.eq_of_covers_iff fun o ho => ?_
  rw [covers_linearity_iff ho, covers_linearity_iff ho, horient]
  simp only [hbodies]

theorem isRegular_congr {q : Parts} (hterm : q.isTerminal = p.isTerminal)
    (hnon : q.isNonterminal = p.isNonterminal)
    (hbodies : ∀ b, b ∈ q.productions.flatten ↔ b ∈ p.productions.flatten) :
    q.isRegular = p.isRegular := by
  have hbody : q.isRegularBody = p.isRegularBody := by
    funext b
    unfold isRegularBody isRightPair isLeftPair
    rw [hterm, hnon]
  have hall : q.productions.flatten.all p.isRegularBody = p.productions.flatten.all p.isRegularBody := by
    rw [Bool.eq_iff_iff, List.all_eq_true, List.all_eq_true]
    simp only [hbodies]
  unfold isRegular
  rw [linearity_congr hterm hnon hbodies, hbody, hall]

/-- The same parts written down in another order: the nonterminals, each with its bodies, and the bodies
    of each nonterminal. -/
structure Rearranged (p q : Parts) : Prop where
  terminals : p.terminals.Perm q.terminals
  count : q.productions.length = q.nonterminals.length
  entries : ∃ moved : List (Symbol × List Body), p.entries.Perm moved ∧
    List.Forall₂ (fun e f => e.1 = f.1 ∧ e.2.Perm f.2) moved q.entries

/-- Members that stand at the same positions say the same somewhere. -/
theorem exists_mem_iff_of_forall₂ {α β : Type} {R : α → β → Prop} {P : α → Prop} {Q : β → Prop}
    {xs : List α} {ys : List β} (h : List.Forall₂ R xs ys) (hPQ : ∀ x y, R x y → (P x ↔ Q y)) :
    (∃ x ∈ xs, P x) ↔ ∃ y ∈ ys, Q y := by
  induction h with
  | nil => simp
  | cons hxy _ ih => rw [List.exists_mem_cons_iff, List.exists_mem_cons_iff, ih, hPQ _ _ hxy]

namespace Rearranged

/-- What an entry says up to the order of its bodies, some entry says before and after. -/
theorem exists_entry_iff {q : Parts} (h : p.Rearranged q) {P : Symbol × List Body → Prop}
    (hP : ∀ e f : Symbol × List Body, e.1 = f.1 → e.2.Perm f.2 → (P e ↔ P f)) :
    (∃ e ∈ q.entries, P e) ↔ ∃ e ∈ p.entries, P e := by
  obtain ⟨moved, hperm, hsets⟩ := h.entries
  simp only [hperm.mem_iff]
  exact (exists_mem_iff_of_forall₂ hsets fun e f hef => hP e f hef.1 hef.2).symm

variable {q : Parts} (hp : p.productions.length = p.nonterminals.length) (h : p.Rearranged q)
include hp h

theorem mem_nonterminals_iff (s : Symbol) : s ∈ q.nonterminals ↔ s ∈ p.nonterminals := by
  have hsymbols : ∀ r : Parts, r.productions.length = r.nonterminals.length →
      (s ∈ r.nonterminals ↔ ∃ e ∈ r.entries, e.1 = s) := by
    intro r hr
    rw [← heads_entries hr, RuleTable.heads, List.mem_map]
  rw [hsymbols q h.count, hsymbols p hp]
  exact h.exists_entry_iff fun e f hef _ => by rw [hef]

theorem mem_flatten_iff (b : Body) : b ∈ q.productions.flatten ↔ b ∈ p.productions.flatten := by
  have hbodies : ∀ r : Parts, r.productions.length = r.nonterminals.length →
      (b ∈ r.productions.flatten ↔ ∃ e ∈ r.entries, b ∈ e.2) := by
    intro r hr
    have hsnd : r.entries.map Prod.snd = r.productions := List.map_snd_zip (Nat.le_of_eq hr)
    rw [← hsnd, List.mem_flatten]
    simp only [List.mem_map, exists_exists_and_eq_and]
  rw [hbodies q h.count, hbodies p hp]
  exact h.exists_entry_iff fun e f _ hef => hef.mem_iff

/-- The alphabets and the set of bodies stay, and the scans see no more than these. -/
theorem classified_alike : q.isRegular = p.isRegular ∧ q.linearity = p.linearity := by
  have hterm : q.isTerminal = p.isTerminal := by
    funext s
    rw [Bool.eq_iff_iff, isTerminal_iff, isTerminal_iff, h.terminals.mem_iff]
  have hnon : q.isNonterminal = p.isNonterminal := by
    funext s
    rw [Bool.eq_iff_iff, isNonterminal_iff, isNonterminal_iff, h.mem_nonterminals_iff hp]
  have hbodies := h.mem_flatten_iff hp
  exact ⟨isRegular_congr hterm hnon hbodies, linearity_congr hterm hnon hbodies⟩

end Rearranged

end Parts

/-- **The classification is exact and does not depend on the order.** A grammar is regular when all its
    bodies are right-linear or all are left-linear. Its orientation is mixed when pairs of both
    orientations occur, wherever they do, and otherwise the only one that occurs. Both stay when the
    nonterminals, with their bodies, or the bodies of a nonterminal are put in another order. -/
theorem classification_exact (g : Grammar) :
    (g.isRegular = true ↔
      (∀ bodies ∈ g.productions, ∀ b ∈ bodies, g.RightShaped b) ∨
      (∀ bodies ∈ g.productions, ∀ b ∈ bodies, g.LeftShaped b)) ∧
    (g.linearity = .mixed ↔ g.HasRightPair ∧ g.HasLeftPair) ∧
    (g.linearity = .right ↔ g.HasRightPair ∧ ¬ g.HasLeftPair) ∧
    (g.linearity = .left ↔ g.HasLeftPair ∧ ¬ g.HasRightPair) ∧
    (g.linearity = .none ↔ ¬ g.HasRightPair ∧ ¬ g.HasLeftPair) ∧
    ∀ q : Parts, g.Rearranged q → q.isRegular = g.isRegular ∧ q.linearity = g.linearity := by
  have hp := g.wellFormed
  refine ⟨hp.isRegular_iff, ?_, ?_, ?_, ?_, fun q h => h.classified_alike hp.count⟩
  · rw [Linearity.eq_mixed_iff, Parts.covers_right_iff, hp.covers_left_iff]
  · rw [Linearity.eq_right_iff, Parts.covers_right_iff, hp.covers_left_iff]
  · rw [Linearity.eq_left_iff, Parts.covers_right_iff, hp.covers_left_iff]
  · rw [Linearity.eq_none_iff, Parts.covers_right_iff, hp.covers_left_iff]

/-- A grammar with a right-linear body in one set and a left-linear one in another. -/
def crossedParts : Parts where
  terminals := Body.ofText "ab"
  nonterminals := Body.ofText "ST"
  productions := [[Body.ofText "aT", Body.ofText "b"], [Body.ofText "a", Body.ofText "Sb"]]

def crossed : Grammar := ⟨crossedParts, false, by decide⟩

/-- The same grammar from its second nonterminal on, with the bodies the other way round. -/
def crossedBack : Parts where
  terminals := Body.ofText "ab"
  nonterminals := Body.ofText "TS"
  productions := [[Body.ofText "Sb", Body.ofText "a"], [Body.ofText "b", Body.ofText "aT"]]

theorem classification_exact_crossed :
    crossed.Rearranged crossedBack ∧ crossedBack.linearity = .mixed ∧ crossedBack.isRegular = false := by
  have hmoved : crossed.Rearranged crossedBack := {
    terminals := List.Perm.refl _
    count := rfl
    entries := ⟨crossed.entries.reverse, (List.reverse_perm _).symm,
      .cons ⟨rfl, List.Perm.swap ..⟩ (.cons ⟨rfl, List.Perm.swap ..⟩ .nil)⟩ }
  obtain ⟨hregular, hlinearity⟩ := (classification_exact crossed).2.2.2.2.2 crossedBack hmoved
  refine ⟨hmoved, ?_, ?_⟩
  · rw [hlinearity]
    decide
  · rw [hregular]
    decide

end LetterGrammar
