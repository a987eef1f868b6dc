import LetterGrammar.Proofs.Greibach.Closing
import Mathlib.Data.List.Nodup

/-!
# When a conversion fails

The conversion of a grammar in Chomsky form fails only when the letters run out, and that happens
exactly when there are fewer free letters than closing nonterminals. Every other way to fail is shut off
by an invariant: rounds of replacement end because ranks rise, a base body exists because every
nonterminal derives a word, leading nonterminals are replaced by bodies that already start with a
terminal, and what is assembled at the end is well-formed, generating and in Greibach form.

## Contents

- **`eliminateAll_cases`**: the elimination succeeds, or the letters run out.
- **`pass`**, **`ground_eq_pass`**: one pass over the bodies of a nonterminal, and when it is enough.
- **`Lined`**, **`Lined.exists_substituteAll`**: the substitution succeeds and leaves a terminal in front
  of every body.
- **`exists_assemble`**: the assembly succeeds.
- **`Chomsky.convert_cases`**: the outcomes of a conversion.
- **`toGreibach_fails_iff_letters_run_out`**: the exact condition of failure.
-/

namespace LetterGrammar
namespace Conversion

open RuleTable

variable {terminals : List Symbol} {c₀ c c' : Conversion}

/-! ## Elimination -/

/-- All letters of a sound state are different capital letters. -/
theorem Sound.length_heads_le (hs : Sound terminals c₀ c) : c.heads.length ≤ 26 :=
  hs.heads_nodup.length_le_of_subset fun s hm => mem_upperLetters (hs.heads_upper s hm)

/-- A step of the elimination succeeds, or the nonterminal is recursive and all letters are in use. -/
theorem eliminateAt_cases (on : Bool) {pre rest : List Symbol} {nt : Symbol} (hs : Sound terminals c₀ c)
    (hr : c.ranked = pre ++ nt :: rest) (hi : Raised pre.length c) (ht : Retraced c₀ pre.length c) :
    (∃ c', (eliminateAt on c pre.length nt).result = .ok c' ∧ Sound terminals c₀ c' ∧
      Raised (pre.length + 1) c' ∧ Retraced c₀ (pre.length + 1) c') ∨
    ((∃ text, (eliminateAt on c pre.length nt).result =
        .error (.conversion .identifierSpaceExhausted text none)) ∧
      26 ≤ c.heads.length ∧ c₀.Recursive nt) := by
  obtain ⟨bodies, hraise⟩ := hi.exists_raise hs hr
  have hs₁ := hs.raise hr hraise
  obtain ⟨hi₁, hlow⟩ := hi.raise hs hr hraise
  have hnt : nt ∈ (c.replaced nt bodies).ranked := by
    show nt ∈ c.ranked
    rw [hr]
    simp
  rw [eliminateAt_result, hraise]
  show (∃ c', (unwind on (c.replaced nt bodies) nt).result = .ok c' ∧ _) ∨
    ((∃ text, (unwind on (c.replaced nt bodies) nt).result = _) ∧ _)
  rcases hi₁.unwind_cases on hs₁ hnt with ⟨c', hu⟩ | ⟨hfail, hfull, hlead⟩
  · exact Or.inl ⟨c', hu, hs₁.unwind (mem_heads_of_mem_ranked hnt) hu, hi₁.unwind hs₁ hr hlow hu,
      ht.eliminateAt hs hr hi hraise hu⟩
  · exact Or.inr ⟨hfail, hfull, (ht.leads_self_iff hs hr hi hraise).mp hlead⟩

/-- **The elimination succeeds, or the letters run out**: there are more ranks and recursive
    nonterminals than letters. -/
theorem eliminateAll_cases (on : Bool) {pre rest : List Symbol} (hs : Sound terminals c₀ c)
    (hr : c.ranked = pre ++ rest) (hi : Raised pre.length c) (ht : Retraced c₀ pre.length c) :
    (∃ c', (eliminateAll on c (rest.zipIdx pre.length)).result = .ok c' ∧ Sound terminals c₀ c' ∧
      Raised c₀.ranked.length c' ∧ Retraced c₀ c₀.ranked.length c') ∨
    ((∃ text, (eliminateAll on c (rest.zipIdx pre.length)).result =
        .error (.conversion .identifierSpaceExhausted text none)) ∧
      26 < c₀.ranked.length + c₀.recursives c₀.ranked) := by
  induction rest generalizing pre c with
  | nil =>
      have hlen : c₀.ranked.length = pre.length := by
        rw [← hs.ranked_eq, hr, List.append_nil]
      rw [hlen]
      exact Or.inl ⟨c, rfl, hs, hi, ht⟩
  | cons nt rest ih =>
      rw [List.zipIdx_cons, eliminateAll_cons_result]
      rcases eliminateAt_cases on hs hr hi ht with ⟨c₁, hat, hs₁, hi₁, ht₁⟩ | ⟨⟨text, hfail⟩, hfull, hrec⟩
      · rw [hat]
        have hr₁ : c₁.ranked = (pre ++ [nt]) ++ rest := by
          rw [hs₁.ranked_eq, ← hs.ranked_eq, hr, List.append_cons]
        have hlen : (pre ++ [nt]).length = pre.length + 1 := List.length_append
        have hrest := ih hs₁ hr₁ (hlen ▸ hi₁) (hlen ▸ ht₁)
        rw [hlen] at hrest
        exact hrest
      · rw [hfail]
        refine Or.inr ⟨⟨text, rfl⟩, ?_⟩
        -- the ranks before this one account for all fresh letters in use, and it needs one more
        have hlen : c.heads.length = c₀.ranked.length + c.auxiliary.length := by
          rw [← hs.ranked_eq]
          exact List.length_append
        have hfresh := ht.fresh
        have hranked : c₀.ranked = pre ++ nt :: rest := by rw [← hs.ranked_eq, hr]
        have htake : c₀.ranked.take pre.length = pre := by rw [hranked, List.take_left]
        have hcount : c₀.recursives c₀.ranked = c₀.recursives pre + (c₀.recursives rest + 1) := by
          rw [congrArg c₀.recursives hranked, recursives_append, recursives_cons_of_recursive hrec]
        rw [htake] at hfresh
        omega

/-! ## Substitution -/

/-- One replacement is enough for the body: it starts with a terminal, or with another nonterminal all
    of whose bodies do. -/
def Ready (c : Conversion) (nt : Symbol) (b : Body) : Prop :=
  b.Grounded ∨ ∃ x rest, b = x :: rest ∧ x.isUpper = true ∧ x ≠ nt ∧
    (∀ q ∈ c.rules.bodies x, q.Grounded) ∧ ∀ y ∈ rest, y.isUpper = true

variable {nt : Symbol}

theorem Ready.expand {b b' : Body} (h : c.Ready nt b)
    (hexp : b' ∈ expandLeading Symbol.isUpper c.rules b) : b'.Grounded := by
  rcases mem_expandLeading.mp hexp with ⟨hstart, rfl⟩ | ⟨x, tail, q, rfl, hx, hq, rfl⟩
  · rcases h with h | ⟨x, rest, rfl, hx, _⟩
    · exact h
    · exact absurd hx (Bool.eq_false_iff.mp hstart)
  · rcases h with h | ⟨y, rest, heq, _, _, hall, hrest⟩
    · exact absurd h.1 (Bool.eq_false_iff.mp (Symbol.isLower_eq_false_of_isUpper hx))
    · injection heq with hxy htail
      rw [hxy] at hq
      exact (hall q hq).append (htail ▸ hrest)

theorem Ready.flawless {b : Body} (h : c.Ready nt b) (hnt : nt.isUpper = true) :
    recursionFlaw? nt b = none := by
  rcases h with h | ⟨x, rest, rfl, _, hne, _⟩
  · cases b with
    | nil => exact absurd h id
    | cons x rest =>
        refine if_neg ?_
        rintro rfl
        exact absurd h.1 (Bool.eq_false_iff.mp (Symbol.isLower_eq_false_of_isUpper hnt))
  · exact if_neg hne

/-- The bodies of a nonterminal with their leading nonterminals replaced once. -/
def pass (c : Conversion) (nt : Symbol) : List Body :=
  Body.distinct ((c.rules.bodies nt).flatMap (expandLeading Symbol.isUpper c.rules))

section Pass

variable (hnt : nt.isUpper = true) (h : ∀ b ∈ c.rules.bodies nt, c.Ready nt b)
include h

/-- One pass brings a terminal to the front of every body. -/
theorem grounded_pass : ∀ b ∈ c.pass nt, b.Grounded := by
  intro b' hb'
  obtain ⟨b, hb, hexp⟩ := List.mem_flatMap.mp (Body.mem_of_mem_distinct hb')
  exact (h b hb).expand hexp

include hnt

/-- **One pass is enough**: rounds of replacement, two of them or more, give the bodies after one pass. The
    second round finds nothing to replace. -/
theorem settle_eq_pass (stuck : Fault) (rounds : Nat) :
    settle Symbol.isUpper (recursionFlaw? nt) stuck c.rules (rounds + 2) (c.rules.bodies nt) =
      .ok (c.pass nt) := by
  have hground := grounded_pass h
  have hready : ∀ b ∈ c.pass nt, c.Ready nt b := fun b hb => Or.inl (hground b hb)
  have hstop : (c.pass nt).any (startsIn Symbol.isUpper) = false :=
    List.any_eq_false.mpr fun b hb => Bool.eq_false_iff.mp (hground b hb).startsIn_upper
  have hagain : Body.distinct ((c.pass nt).flatMap (expandLeading Symbol.isUpper c.rules)) = c.pass nt := by
    rw [flatMap_expandLeading_of_none hstop]
    exact Body.distinct_distinct _
  rw [settle_succ, List.findSome?_eq_none_iff.mpr fun b hb => (h b hb).flawless hnt]
  dsimp only
  by_cases hany : (c.rules.bodies nt).any (startsIn Symbol.isUpper) = true
  · rw [if_pos hany]
    show settle _ _ stuck c.rules (rounds + 1) (c.pass nt) = _
    rw [settle_succ, List.findSome?_eq_none_iff.mpr fun b hb => (hready b hb).flawless hnt, hagain]
    dsimp only
    rw [hstop, if_neg Bool.false_ne_true]
  · rw [if_neg hany]
    rfl

end Pass

/-- **Replacing leading nonterminals succeeds** where one replacement is enough, in one pass. -/
theorem ground_eq_pass (hs : Sound terminals c₀ c) (hnt : nt ∈ c.heads)
    (h : ∀ b ∈ c.rules.bodies nt, c.Ready nt b) : c.ground nt = .ok (c.pass nt) := by
  have hpos : 0 < c.rules.length := by
    rw [hs.length_rules]
    exact List.length_pos_of_mem hnt
  obtain ⟨rounds, hrounds⟩ := Nat.exists_eq_succ_of_ne_zero (Nat.ne_of_gt hpos)
  unfold Conversion.ground
  rw [hrounds]
  exact settle_eq_pass (hs.heads_upper nt hnt) h _ rounds

/-- A line of nonterminals for the substitution: those that are done have a terminal in front of every
    body, and each one in the line comes after those that lead its bodies. -/
structure Lined (done line : List Symbol) (c : Conversion) : Prop where
  heads : ∀ s ∈ done ++ line, s ∈ c.heads
  nodup : (done ++ line).Nodup
  grounded : ∀ s ∈ done, ∀ b ∈ c.rules.bodies s, b.Grounded
  ordered : ∀ s ∈ line, ∀ b ∈ c.rules.bodies s, b.Grounded ∨ ∃ x rest, b = x :: rest ∧
    (x ∈ done ∨ [x, s].Sublist line) ∧ ∀ y ∈ rest, y.isUpper = true

namespace Lined

variable {done line pre : List Symbol}

theorem not_mem (h : Lined done (nt :: line) c) : nt ∉ done ∧ nt ∉ line := by
  obtain ⟨_, hline, hdisj⟩ := List.nodup_append.mp h.nodup
  exact ⟨fun hm => hdisj nt hm nt List.mem_cons_self rfl, (List.nodup_cons.mp hline).1⟩

/-- For the first in line one replacement is enough. -/
theorem ready (hs : Sound terminals c₀ c) (h : Lined done (nt :: line) c) :
    ∀ b ∈ c.rules.bodies nt, c.Ready nt b := by
  obtain ⟨hnot, hnot'⟩ := h.not_mem
  intro b hb
  rcases h.ordered nt List.mem_cons_self b hb with hg | ⟨x, rest, rfl, hx, hrest⟩
  · exact Or.inl hg
  · have hxd : x ∈ done := by
      rcases hx with hx | hx
      · exact hx
      · -- nothing stands before the first
        cases hx with
        | cons _ hsub => exact absurd (hsub.subset (by simp)) hnot'
        | cons_cons _ hsub => exact absurd (hsub.subset (by simp)) hnot'
    refine Or.inr ⟨x, rest, rfl, hs.heads_upper x (h.heads x (by simp [hxd])), ?_, h.grounded x hxd, hrest⟩
    rintro rfl
    exact hnot hxd

/-- Once the first in line has terminals in front of its bodies, it is done. -/
theorem replaced (h : Lined done (nt :: line) c) {bodies : List Body} (hall : ∀ b ∈ bodies, b.Grounded) :
    Lined (done ++ [nt]) line (c.replaced nt bodies) := by
  obtain ⟨hnot, hnot'⟩ := h.not_mem
  have hself : (c.replaced nt bodies).rules.bodies nt = bodies := bodies_set_self ..
  have hother : ∀ s, s ≠ nt → (c.replaced nt bodies).rules.bodies s = c.rules.bodies s :=
    fun s hne => bodies_set_ne hne ..
  refine ⟨by rw [← List.append_cons]; exact h.heads, by rw [← List.append_cons]; exact h.nodup, ?_, ?_⟩
  · refine List.forall_mem_append.mpr ⟨fun s hm => ?_, List.forall_mem_singleton.mpr ?_⟩
    · rw [hother s fun he => hnot (he ▸ hm)]
      exact h.grounded s hm
    · rw [hself]
      exact hall
  · intro s hm b hb
    rw [hother s fun he => hnot' (he ▸ hm)] at hb
    refine (h.ordered s (List.mem_cons_of_mem _ hm) b hb).imp id ?_
    rintro ⟨x, rest, rfl, hx, hrest⟩
    refine ⟨x, rest, rfl, ?_, hrest⟩
    rcases hx with hx | hx
    · exact Or.inl (List.mem_append_left _ hx)
    · cases hx with
      | cons _ hsub => exact Or.inr hsub
      | cons_cons _ _ => exact Or.inl (by simp)

/-- **The substitution succeeds along a line**, as far as it is taken, and leaves the rest of the line. -/
theorem exists_substituteAll (on : Bool) (hs : Sound terminals c₀ c) (h : Lined done (pre ++ line) c) :
    ∃ c', (substituteAll on c pre).result = .ok c' ∧ Sound terminals c₀ c' ∧ c'.heads = c.heads ∧
      Lined (done ++ pre) line c' := by
  induction pre generalizing done c with
  | nil => exact ⟨c, rfl, hs, rfl, by rw [List.append_nil]; exact h⟩
  | cons nt pre ih =>
      have hnt : nt ∈ c.heads := h.heads nt (by simp)
      have hready := h.ready hs
      have hground := ground_eq_pass hs hnt hready
      rw [substituteAll_cons_result, hground, List.append_cons]
      exact ih (hs.ground hnt hground) (h.replaced (grounded_pass hready))

end Lined

/-- A lower rank comes before a higher one. -/
theorem pair_sublist_of_rank_lt {s x : Symbol} (hx : x ∈ c.ranked) (h : c.rank s < c.rank x) :
    [s, x].Sublist c.ranked := by
  have hlt : c.rank x < c.ranked.length := List.idxOf_lt_length_iff.mpr hx
  have hs : s ∈ c.ranked := List.idxOf_lt_length_iff.mp (Nat.lt_trans h hlt)
  have htake : s ∈ c.ranked.take (c.rank x) := (List.mem_take_iff_idxOf_lt hs).mpr h
  have hdrop : x ∈ c.ranked.drop (c.rank x) := by
    rw [List.drop_eq_getElem_cons hlt]
    exact List.mem_cons.mpr (Or.inl (List.getElem_idxOf hlt).symm)
  rw [← List.take_append_drop (c.rank x) c.ranked]
  exact (List.singleton_sublist.mpr htake).append (List.singleton_sublist.mpr hdrop)

/-- **After the elimination the nonterminals are in line** for the substitution. -/
theorem Raised.lined (hs : Sound terminals c₀ c) (hi : Raised c.ranked.length c) :
    Lined [] (c.ranked.reverse ++ c.auxiliary.reverse) c := by
  have hupper : ∀ s ∈ c.ranked, s.isUpper = true := fun s hm =>
    hs.heads_upper s (mem_heads_of_mem_ranked hm)
  refine ⟨fun s hm => mem_substituted_iff.mp hm, hs.substituted_nodup, List.forall_mem_nil _,
    fun s hm b hb => ?_⟩
  rcases List.mem_append.mp hm with hm | hm
  · -- a ranked nonterminal comes after the higher ranks that lead its bodies
    have hsr := List.mem_reverse.mp hm
    rcases hi.shaped s hsr b hb with hg | hp
    · exact Or.inl hg
    · cases b with
      | nil => exact absurd hp id
      | cons x rest =>
          have hlt := hi.ascending s x (List.idxOf_lt_length_iff.mpr hsr) ⟨rest, hb⟩
          have hsub := (pair_sublist_of_rank_lt hp.1 hlt).reverse
          exact Or.inr ⟨x, rest, rfl, Or.inr (hsub.trans (List.sublist_append_left _ _)),
            (hi.shaped s hsr _ hb).tail_upper hupper⟩
  · -- a fresh nonterminal comes after all ranked ones
    have hhead := hi.tails s (List.mem_reverse.mp hm) b hb
    cases b with
    | nil => exact absurd hhead id
    | cons x rest =>
        refine Or.inr ⟨x, rest, rfl, Or.inr ?_, hhead.2⟩
        exact (List.singleton_sublist.mpr (List.mem_reverse.mpr hhead.1)).append
          (List.singleton_sublist.mpr hm)

/-- **After the elimination the substitution succeeds**, and all bodies start with terminals. -/
theorem Raised.exists_substituteAll (on : Bool) (hs : Sound terminals c₀ c)
    (hi : Raised c.ranked.length c) :
    ∃ c', (substituteAll on c (c.ranked.reverse ++ c.auxiliary.reverse)).result = .ok c' ∧
      Sound terminals c₀ c' ∧ ∀ s ∈ c'.heads, ∀ b ∈ c'.rules.bodies s, b.Grounded := by
  have hlined : Lined [] ((c.ranked.reverse ++ c.auxiliary.reverse) ++ []) c := by
    rw [List.append_nil]
    exact hi.lined hs
  obtain ⟨c', hok, hs', hheads, hdone⟩ := hlined.exists_substituteAll on hs
  refine ⟨c', hok, hs', fun s hm => hdone.grounded s ?_⟩
  rw [hheads] at hm
  exact mem_substituted_iff.mpr hm

/-! ## Assembly -/

section Assembly

variable (hs : Sound terminals c₀ c) (hnd : terminals.Nodup)
include hs hnd

/-- The parts of the result are well-formed. -/
theorem wellFormed_result : (c.result terminals).WellFormed where
  terminals_lower := hs.terminals_lower
  terminals_nodup := hnd
  nonterminals_upper := fun s hm => hs.heads_upper s (List.mem_filter.mp hm).1
  nonterminals_nodup := hs.heads_nodup.filter _
  count := List.length_map ..
  sets_nonempty := by
    intro bs hbs
    obtain ⟨nt, hnt, rfl⟩ := List.mem_map.mp hbs
    have hhead := (List.mem_filter.mp hnt).1
    obtain ⟨w, hw⟩ := hs.productive nt hhead
    obtain ⟨b, hb, _⟩ := (derives_nonterminal_iff (hs.not_lower_of_mem_heads hhead)).mp hw
    exact List.ne_nil_of_mem ((Body.mem_canonical fun b hb => hs.isScalar (hs.spelled nt b hb)).mpr hb)
  declared := by
    intro bs hbs b hb x hx
    obtain ⟨nt, hnt, rfl⟩ := List.mem_map.mp hbs
    rw [Body.mem_canonical fun b hb => hs.isScalar (hs.spelled nt b hb)] at hb
    exact hs.kept_symbol (List.mem_filter.mp hnt).2 hb hx

theorem fault?_result : (c.result terminals).fault? = none := by
  refine Parts.fault?_eq_none_iff.mpr ⟨wellFormed_result hs hnd, fun nt hnt => ?_⟩
  obtain ⟨w, hw⟩ := hs.productive nt (List.mem_filter.mp hnt).1
  exact ⟨w, (hs.derives_result hnt w).mp hw⟩

omit hnd in
/-- The parts of the result are in Greibach form, once all bodies start with terminals. -/
theorem isGreibach_result (hall : ∀ s ∈ c.heads, ∀ b ∈ c.rules.bodies s, b.Grounded) :
    (c.result terminals).isGreibach = true := by
  refine List.all_eq_true.mpr fun b hb => ?_
  obtain ⟨bs, hbs, hb⟩ := List.mem_flatten.mp hb
  obtain ⟨nt, hnt, rfl⟩ := List.mem_map.mp hbs
  obtain ⟨hhead, hkeep⟩ := List.mem_filter.mp hnt
  rw [Body.mem_canonical fun b hb => hs.isScalar (hs.spelled nt b hb)] at hb
  have hground := hall nt hhead b hb
  cases b with
  | nil => exact absurd hground id
  | cons x rest =>
      refine Bool.and_eq_true_iff.mpr ⟨?_, List.all_eq_true.mpr fun y hy => ?_⟩
      · rcases hs.kept_symbol hkeep hb List.mem_cons_self with ht | hh
        · exact List.contains_iff_mem.mpr ht
        · exact absurd hground.1
            (Bool.eq_false_iff.mp (hs.not_lower_of_mem_heads (List.mem_filter.mp hh).1))
      · rcases hs.kept_symbol hkeep hb (List.mem_cons_of_mem x hy) with ht | hh
        · have hlow := Symbol.isLower_eq_false_of_isUpper (hground.2 y hy)
          exact absurd (hs.terminals_lower y ht) (Bool.eq_false_iff.mp hlow)
        · exact List.contains_iff_mem.mpr hh

/-- **The assembly succeeds.** -/
theorem exists_assemble (on : Bool) (hall : ∀ s ∈ c.heads, ∀ b ∈ c.rules.bodies s, b.Grounded) :
    ∃ r, (assemble on c terminals).result = .ok r := by
  have hform : (⟨c.result terminals, false, fault?_result hs hnd⟩ : Grammar).isGreibach = true :=
    isGreibach_result hs hall
  rw [assemble_result, Grammar.build_of_fault?_eq_none (fault?_result hs hnd)]
  show ∃ r, ofResult (Grammar.asGreibach _) = .ok r
  unfold Grammar.asGreibach
  rw [dif_pos hform]
  exact ⟨_, rfl⟩

end Assembly

/-- Replacing leading lower ranks leaves no empty body, so every body has a first symbol to look at. -/
theorem nil_not_mem_raise {i : Nat} {bodies : List Body} (h : c.raise i nt = .ok bodies) :
    [] ∉ bodies := by
  intro hnil
  obtain ⟨_, hout⟩ := settle_ok_keeps (P := fun _ => True) (fun _ _ _ => trivial) trivial h
  cases (hout [] hnil).1

end Conversion

/-! ## The conversion -/

open Conversion

/-- **The outcomes of a conversion** of a grammar in Chomsky form. -/
theorem Chomsky.convert_cases (c : Chomsky) (on : Bool) :
    ((∃ r, (convert on c.grammar).result = .ok r) ∧
      c.grammar.nonterminals.length + c.closing.length ≤ nonterminalCapacity) ∨
    ((∃ text, (convert on c.grammar).result =
        .error (.conversion .identifierSpaceExhausted text none)) ∧
      nonterminalCapacity < c.grammar.nonterminals.length + c.closing.length) := by
  have hs := sound_assign c.grammar
  have hnd := c.grammar.wellFormed.terminals_nodup
  have hranked : (assign c.grammar.toParts).ranked.length = c.grammar.nonterminals.length :=
    length_lastLetters _
  rw [convert_result]
  by_cases hempty : c.grammar.nonterminals = []
  · rw [if_pos (List.isEmpty_iff.mpr hempty)]
    have hheads : (assign c.grammar.toParts).heads = [] := by
      show lastLetters c.grammar.nonterminals.length ++ [] = []
      rw [hempty]
      rfl
    refine Or.inl ⟨exists_assemble hs hnd on fun s hm => ?_, ?_⟩
    · rw [hheads] at hm
      cases hm
    · rw [closing, hempty]
      exact Nat.zero_le _
  · rw [if_neg fun h => hempty (List.isEmpty_iff.mp h)]
    have hr : (assign c.grammar.toParts).ranked = [] ++ (assign c.grammar.toParts).ranked := rfl
    rcases eliminateAll_cases on hs hr c.raised_assign (.start rfl) with
      ⟨c₁, helim, hs₁, hi₁, ht₁⟩ | ⟨⟨text, hfail⟩, hfull⟩
    · -- the letters that were handed out are all different, so there were enough
      obtain ⟨c₂, hsubst, hs₂, hall⟩ := Raised.exists_substituteAll on hs₁ (hs₁.ranked_eq ▸ hi₁)
      obtain ⟨r, hok⟩ := exists_assemble hs₂ hnd on hall
      have hcount : c₁.auxiliary.length = c.closing.length := by
        rw [ht₁.fresh, List.take_length, c.recursives_assign]
      have hlen : c₁.heads.length = c.grammar.nonterminals.length + c.closing.length := by
        rw [← hcount, ← hranked, ← hs₁.ranked_eq]
        exact List.length_append
      refine Or.inl ⟨⟨r, ?_⟩, hlen ▸ hs₁.length_heads_le⟩
      rw [show (eliminateAll on (assign c.grammar.toParts)
        (assign c.grammar.toParts).ranked.zipIdx).result = .ok c₁ from helim]
      show ((substituteAll on c₁ (c₁.ranked.reverse ++ c₁.auxiliary.reverse)).result >>= _) = _
      rw [hsubst]
      exact hok
    · rw [hranked, c.recursives_assign] at hfull
      refine Or.inr ⟨⟨text, ?_⟩, hfull⟩
      rw [show (eliminateAll on (assign c.grammar.toParts)
        (assign c.grammar.toParts).ranked.zipIdx).result = _ from hfail]
      rfl

/-- A closing nonterminal is a nonterminal. -/
theorem Chomsky.length_closing_le (c : Chomsky) : c.closing.length ≤ c.grammar.nonterminals.length :=
  List.length_filter_le ..

/-- **A conversion fails exactly when the letters run out.** Under settings that are accepted, the
    conversion of a grammar in Chomsky form with `n` nonterminals fails when more than `26 - n` of them
    are closing, and then says that the letters are used up; else it gives a grammar, as it always does
    for up to 13 nonterminals. So no loop uses up its rounds, no step finds the rules broken, and no
    step looks for the first symbol of an empty body. -/
theorem toGreibach_fails_iff_letters_run_out (c : Chomsky) (settings : List Setting) {s : Settings}
    (hsettings : settings.foldlM (fun s change => change s) (⟨false⟩ : Settings) = .ok s) :
    ((∃ f, (c.toGreibach settings).result = .error f) ↔
      nonterminalCapacity - c.grammar.nonterminals.length < c.closing.length) ∧
    (∀ f, (c.toGreibach settings).result = .error f →
      ∃ text, f = .conversion .identifierSpaceExhausted text none) ∧
    (c.grammar.nonterminals.length ≤ 13 → ∃ r, (c.toGreibach settings).result = .ok r) ∧
    (∀ (state : Conversion) (i : Nat) (nt : Symbol) (bodies : List Body),
      state.raise i nt = .ok bodies → [] ∉ bodies) := by
  have hresult : (c.toGreibach settings).result = (convert s.traced c.grammar).result := by
    rw [Chomsky.toGreibach_result, hsettings]
    rfl
  have hcap : nonterminalCapacity = 26 := rfl
  have hclosing := c.length_closing_le
  have hall := length_nonterminals_le c.grammar.wellFormed
  rw [hresult]
  rcases c.convert_cases s.traced with ⟨⟨r, hok⟩, hle⟩ | ⟨⟨text, hfail⟩, hlt⟩
  · rw [hok]
    refine ⟨⟨?_, fun h => absurd h (by omega)⟩, ?_, fun _ => ⟨r, rfl⟩, fun _ _ _ _ => nil_not_mem_raise⟩
    · rintro ⟨f, hf⟩
      cases hf
    · intro f hf
      cases hf
  · rw [hfail]
    refine ⟨⟨fun _ => by omega, fun _ => ⟨_, rfl⟩⟩, ?_, fun h => absurd h (by omega),
      fun _ _ _ _ => nil_not_mem_raise⟩
    intro f hf
    injection hf with hf
    exact ⟨text, hf.symm⟩

/-- Fourteen nonterminals, each with `X → X X | a`: one more than there are letters for. -/
def crowdedParts : Parts where
  terminals := Body.ofText "a"
  nonterminals := Body.ofText "ABCDEFGHIJKLMN"
  productions := (Body.ofText "ABCDEFGHIJKLMN").map fun s => [[s, s], Body.ofText "a"]

def crowded : Chomsky := ⟨⟨crowdedParts, false, by decide⟩, by decide⟩

theorem toGreibach_crowded_fails :
    crowded.closing.length = 14 ∧
      ∃ f, (crowded.toGreibach [Setting.trace]).result = .error f := by
  have hclosing : crowded.closing.length = 14 := by decide
  refine ⟨hclosing, (toGreibach_fails_iff_letters_run_out crowded [Setting.trace] rfl).1.mpr ?_⟩
  rw [hclosing]
  decide

end LetterGrammar
