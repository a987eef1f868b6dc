import LetterGrammar.Proofs.Greibach.Assembly
import Mathlib.Data.List.Basic

/-!
# Ranks during the elimination

On a grammar in Chomsky form the elimination keeps every body of a ranked nonterminal in one of two
shapes: a terminal and then nonterminals, or two ranked nonterminals and then nonterminals. It goes up
the ranks, and behind it a body that starts with a ranked nonterminal starts with one of a higher rank
than its own. Each replacement therefore raises the rank a body starts with, so the rounds for a rank
end; and the detour through a fresh nonterminal only adds to the end of a body.

## Contents

- **`Body.Grounded`**, **`Body.Paired`**, **`Body.Headed`**: the shapes of bodies.
- **`rank`**: the position of a ranked nonterminal.
- **`Raised`**: the invariant of the elimination below a rank.
- **`Raised.exists_raise`**, **`Raised.exists_base`**: a step finds what it needs.
- **`Raised.raise`**, **`Raised.unwind`**: a step takes the invariant one rank up.
-/

namespace LetterGrammar

/-! ## Shapes of bodies -/

namespace Body

/-- A terminal, then nonterminals. -/
def Grounded : Body → Prop
  | [] => False
  | x :: rest => x.isLower = true ∧ ∀ y ∈ rest, y.isUpper = true

/-- A symbol of the list, then nonterminals. -/
def Headed (ranked : List Symbol) : Body → Prop
  | [] => False
  | x :: rest => x ∈ ranked ∧ ∀ y ∈ rest, y.isUpper = true

/-- Two symbols of the list, then nonterminals. -/
def Paired (ranked : List Symbol) : Body → Prop
  | [] => False
  | x :: rest => x ∈ ranked ∧ Headed ranked rest

/-- The two shapes of the bodies of ranked nonterminals. -/
def Shaped (ranked : List Symbol) (b : Body) : Prop :=
  b.Grounded ∨ b.Paired ranked

variable {ranked : List Symbol} {a b : Body}

theorem Grounded.append (h : a.Grounded) (hb : ∀ y ∈ b, y.isUpper = true) : Grounded (a ++ b) := by
  cases a with
  | nil => exact absurd h id
  | cons x rest => exact ⟨h.1, List.forall_mem_append.mpr ⟨h.2, hb⟩⟩

/-- There is nothing to replace in front of such a body. -/
theorem Grounded.startsIn_upper (h : a.Grounded) : startsIn Symbol.isUpper a = false := by
  cases a with
  | nil => rfl
  | cons x rest =>
      refine Bool.eq_false_iff.mpr fun hx => ?_
      exact absurd h.1 (Bool.eq_false_iff.mp (Symbol.isLower_eq_false_of_isUpper hx))

theorem Headed.append (h : a.Headed ranked) (hb : ∀ y ∈ b, y.isUpper = true) :
    Headed ranked (a ++ b) := by
  cases a with
  | nil => exact absurd h id
  | cons x rest => exact ⟨h.1, List.forall_mem_append.mpr ⟨h.2, hb⟩⟩

theorem Shaped.append (h : a.Shaped ranked) (hb : ∀ y ∈ b, y.isUpper = true) :
    Shaped ranked (a ++ b) := by
  rcases h with h | h
  · exact Or.inl (h.append hb)
  · cases a with
    | nil => exact absurd h id
    | cons x rest => exact Or.inr ⟨h.1, Headed.append h.2 hb⟩

theorem Shaped.ne_nil (h : b.Shaped ranked) : b ≠ [] := by
  rintro rfl
  exact h.elim id id

/-- Behind its first symbol, a body of either shape has nonterminals only. -/
theorem Shaped.tail_upper (hr : ∀ s ∈ ranked, s.isUpper = true) {x : Symbol} {rest : Body}
    (h : Shaped ranked (x :: rest)) : ∀ y ∈ rest, y.isUpper = true := by
  rcases h with h | ⟨_, h⟩
  · exact h.2
  · cases rest with
    | nil => exact absurd h id
    | cons y rest => exact List.forall_mem_cons.mpr ⟨hr y h.1, h.2⟩

/-- Behind a nonterminal, a body of either shape goes on with a symbol of the list. -/
theorem Shaped.tail_headed {x : Symbol} {rest : Body} (h : Shaped ranked (x :: rest))
    (hx : x.isLower = false) : x ∈ ranked ∧ rest.Headed ranked := by
  rcases h with h | h
  · rw [h.1] at hx
    cases hx
  · exact h

end Body

/-- One of the bodies starts with the symbol. -/
def Body.Leading (bs : List Body) (s : Symbol) : Prop :=
  ∃ rest, s :: rest ∈ bs

/-- A body of the head starts with the symbol. -/
def RuleTable.Leads (t : RuleTable) (head s : Symbol) : Prop :=
  Body.Leading (t.bodies head) s

namespace Conversion

open RuleTable

/-! ## Ranks -/

/-- The rank of a nonterminal; the number of ranks for any other symbol. -/
def rank (c : Conversion) (s : Symbol) : Nat :=
  c.ranked.idxOf s

section Rank

variable {c : Conversion} {pre rest : List Symbol} {nt : Symbol} (hr : c.ranked = pre ++ nt :: rest)
include hr

/-- The ranks below that of a nonterminal are those of the nonterminals before it. -/
theorem rank_lt_length_iff {s : Symbol} : c.rank s < pre.length ↔ s ∈ pre := by
  unfold rank
  rw [hr, List.idxOf_append]
  constructor
  · intro h
    by_contra hs
    rw [if_neg hs] at h
    omega
  · intro h
    rw [if_pos h]
    exact List.idxOf_lt_length_iff.mpr h

theorem rank_eq_length (hnot : nt ∉ pre) : c.rank nt = pre.length := by
  unfold rank
  rw [hr, List.idxOf_append_of_notMem hnot, List.idxOf_cons_self]
  rfl

/-- What is neither below the rank of a nonterminal nor that nonterminal is above it. -/
theorem length_lt_rank {s : Symbol} (hs : s ∉ pre) (hne : s ≠ nt) : pre.length < c.rank s := by
  unfold rank
  rw [hr, List.idxOf_append_of_notMem hs, List.idxOf_cons_ne _ hne.symm]
  omega

/-- What is at most at the rank of a nonterminal, and not that nonterminal, is below it. -/
theorem mem_lower_of_rank_lt_succ {s : Symbol} (h : c.rank s < pre.length + 1) (hne : s ≠ nt) :
    s ∈ pre := by
  by_contra hs
  have := length_lt_rank hr hs hne
  omega

end Rank

theorem rank_inj {c : Conversion} {s x : Symbol} (hs : s ∈ c.ranked) (h : c.rank s = c.rank x) : s = x :=
  (List.idxOf_inj hs).mp h

/-! ## The invariant -/

/-- The invariant of the elimination when the ranks below `i` are done. -/
structure Raised (i : Nat) (c : Conversion) : Prop where
  shaped : ∀ s ∈ c.ranked, ∀ b ∈ c.rules.bodies s, b.Shaped c.ranked
  /-- Below rank `i`, a body starts with no rank up to its own. -/
  ascending : ∀ s x, c.rank s < i → c.rules.Leads s x → c.rank s < c.rank x
  tails : ∀ s ∈ c.auxiliary, ∀ b ∈ c.rules.bodies s, b.Headed c.ranked

namespace Raised

variable {terminals : List Symbol} {c₀ c c' : Conversion} {pre rest : List Symbol} {nt : Symbol}

/-- Lower ranks as a class of leading symbols. -/
theorem raise_lead (hr : c.ranked = pre ++ nt :: rest) {s : Symbol} :
    (c.ranked.take pre.length).contains s = true ↔ s ∈ pre := by
  rw [hr, List.take_left]
  exact List.contains_iff_mem

/-- A replacement of a leading nonterminal keeps the shape. -/
theorem shaped_expand {i : Nat} (hs : Sound terminals c₀ c) (hi : Raised i c) {lead : Symbol → Bool}
    (hlead : ∀ s, lead s = true → s ∈ c.ranked) {b b' : Body} (hb : b.Shaped c.ranked)
    (h : b' ∈ expandLeading lead c.rules b) : b'.Shaped c.ranked := by
  rcases mem_expandLeading.mp h with ⟨_, rfl⟩ | ⟨x, tail, q, rfl, hx, hq, rfl⟩
  · exact hb
  · have hupper : ∀ s ∈ c.ranked, s.isUpper = true := fun s hm =>
      hs.heads_upper s (mem_heads_of_mem_ranked hm)
    exact (hi.shaped x (hlead x hx) q hq).append (hb.tail_upper hupper)

/-- **The rounds for a rank end.** A round raises the rank of each leading symbol that it replaces. -/
theorem exists_raise (hs : Sound terminals c₀ c) (hr : c.ranked = pre ++ nt :: rest)
    (hi : Raised pre.length c) : ∃ bodies, c.raise pre.length nt = .ok bodies := by
  have hmem : ∀ s ∈ pre, s ∈ c.ranked := fun s hm => hr ▸ List.mem_append_left _ hm
  have hlead : ∀ s, (c.ranked.take pre.length).contains s = true → s ∈ c.ranked := fun s h =>
    hmem s ((raise_lead hr).mp h)
  -- the number that a body carries: how many ranks its first symbol is short of this one at most
  refine settle_ok_of_countdown
    (P := fun k b => b.Shaped c.ranked ∧ ∀ x tail, b = x :: tail → x ∈ pre → pre.length ≤ c.rank x + k)
    (fun k b hb => ?_) (fun b hb => ?_) (fun k b hb b' hb' => ⟨?_, ?_⟩) (Nat.lt_succ_self _)
    (fun b hb => ⟨hi.shaped nt (hr ▸ by simp) b hb, fun x tail _ _ => Nat.le_add_left ..⟩)
  · cases b with
    | nil => exact absurd rfl hb.1.ne_nil
    | cons x tail => rfl
  · cases b with
    | nil => rfl
    | cons x tail =>
        refine Bool.eq_false_iff.mpr fun hx => ?_
        have hxp := (raise_lead hr).mp hx
        have hle := hb.2 x tail rfl hxp
        have hlt := (rank_lt_length_iff hr).mpr hxp
        omega
  · exact shaped_expand hs hi hlead hb.1 hb'
  · intro z tail hz hzp
    rcases mem_expandLeading.mp hb' with ⟨hstart, rfl⟩ | ⟨x, tail', q, rfl, hx, hq, rfl⟩
    · rw [hz] at hstart
      exact absurd ((raise_lead hr).mpr hzp) (Bool.eq_false_iff.mp hstart)
    · have hxp := (raise_lead hr).mp hx
      have hle := hb.2 x tail' rfl hxp
      cases q with
      | nil => exact absurd rfl (hi.shaped x (hmem x hxp) [] hq).ne_nil
      | cons y q =>
          injection hz with hyz _
          have hlt := hi.ascending x y ((rank_lt_length_iff hr).mpr hxp) ⟨q, hq⟩
          rw [hyz] at hlt
          omega

/-- **Replacing leading lower ranks keeps the invariant**, and leaves no lower rank in the lead. -/
theorem raise (hs : Sound terminals c₀ c) (hr : c.ranked = pre ++ nt :: rest)
    (hi : Raised pre.length c) {bodies : List Body} (h : c.raise pre.length nt = .ok bodies) :
    Raised pre.length (c.replaced nt bodies) ∧
      ∀ x, (c.replaced nt bodies).rules.Leads nt x → x ∉ pre := by
  have hlead : ∀ s, (c.ranked.take pre.length).contains s = true → s ∈ c.ranked := fun s h =>
    hr ▸ List.mem_append_left _ ((raise_lead hr).mp h)
  obtain ⟨hshaped, hout⟩ := settle_ok_keeps
    (P := fun bs => ∀ b ∈ bs, b.Shaped c.ranked)
    (fun bs hbs _ b' hb' => by
      obtain ⟨b, hb, hexp⟩ := List.mem_flatMap.mp (Body.mem_of_mem_distinct hb')
      exact shaped_expand hs hi hlead (hbs b hb) hexp)
    (hi.shaped nt (hr ▸ by simp)) h
  have hself : (c.replaced nt bodies).rules.bodies nt = bodies := bodies_set_self ..
  have hother : ∀ s, s ≠ nt → (c.replaced nt bodies).rules.bodies s = c.rules.bodies s := fun s hne =>
    bodies_set_ne hne ..
  -- only the bodies of this rank changed, and no condition on lower ranks is about them
  refine ⟨⟨fun s hm b hb => ?_, fun s x hlt hx => ?_, fun s hm b hb => ?_⟩, fun x hx hxp => ?_⟩
  · by_cases hsn : s = nt
    · rw [hsn, hself] at hb
      exact hshaped b hb
    · rw [hother s hsn] at hb
      exact hi.shaped s hm b hb
  · have hsn : s ≠ nt := by
      rintro rfl
      have := rank_eq_length hr (hs.not_mem_lower hr)
      exact absurd hlt (this ▸ Nat.lt_irrefl _)
    unfold RuleTable.Leads at hx
    rw [hother s hsn] at hx
    exact hi.ascending s x hlt hx
  · rw [hother s (hs.ne_of_mem_auxiliary (hr ▸ by simp) hm)] at hb
    exact hi.tails s hm b hb
  · obtain ⟨tail, hb⟩ := hx
    rw [hself] at hb
    exact absurd ((raise_lead hr).mpr hxp) (Bool.eq_false_iff.mp (hout _ hb).2)

/-! ## The detour -/

/-- A left recursive body has a tail to repeat. -/
theorem recursiveTails_ne_nil_iff {i : Nat} (hs : Sound terminals c₀ c) (hi : Raised i c)
    (hnt : nt ∈ c.ranked) : recursiveTails nt (c.rules.bodies nt) ≠ [] ↔ c.rules.Leads nt nt := by
  constructor
  · intro h
    obtain ⟨a, ha⟩ := List.exists_mem_of_ne_nil _ h
    exact ⟨a, (mem_recursiveTails.mp ha).2⟩
  · rintro ⟨a, ha⟩ hnil
    have hhead := ((hi.shaped nt hnt _ ha).tail_headed
      (hs.not_lower_of_mem_heads (mem_heads_of_mem_ranked hnt))).2
    have hmem : a ∈ recursiveTails nt (c.rules.bodies nt) :=
      mem_recursiveTails.mpr ⟨fun he => by rw [he] at hhead; exact hhead, ha⟩
    rw [hnil] at hmem
    cases hmem

/-- Unwinding takes the nonterminal out of its own lead, and nothing else. -/
theorem leads_unwind {on : Bool} {i : Nat} (hs : Sound terminals c₀ c) (hi : Raised i c)
    (hnt : nt ∈ c.ranked) (h : (unwind on c nt).result = .ok c') (x : Symbol) :
    c'.rules.Leads nt x ↔ x ≠ nt ∧ c.rules.Leads nt x := by
  rcases unwind_ok_cases h with ⟨hnil, rfl⟩ | ⟨_, aux, allocator, halloc, rfl⟩
  · refine ⟨fun hx => ⟨?_, hx⟩, fun hx => hx.2⟩
    rintro rfl
    exact (recursiveTails_ne_nil_iff hs hi hnt).mpr hx hnil
  · have U := hs.unwound (mem_heads_of_mem_ranked hnt) halloc
    constructor
    · rintro ⟨tail, hb⟩
      rcases (U.head_bodies _).mp hb with hb | ⟨b, hb, happ⟩
      · obtain ⟨hb, hne⟩ := mem_baseBodies.mp hb
        exact ⟨fun he => hne tail (by rw [he]), tail, hb⟩
      · -- the fresh symbol at the end leaves the first symbol, as no body is empty
        obtain ⟨hb, hne⟩ := mem_baseBodies.mp hb
        cases b with
        | nil => exact absurd rfl (hi.shaped nt hnt _ hb).ne_nil
        | cons y b =>
            injection happ with hxy _
            exact ⟨fun he => hne b (by rw [← hxy, he]), b, hxy ▸ hb⟩
    · rintro ⟨hne, tail, hb⟩
      refine ⟨tail, (U.head_bodies _).mpr (Or.inl (mem_baseBodies.mpr ⟨hb, fun rest he => hne ?_⟩))⟩
      injection he

/-- Unwinding keeps the bodies of every other nonterminal. -/
theorem bodies_unwind_ne {on : Bool} (hs : Sound terminals c₀ c) (hnt : nt ∈ c.heads)
    (h : (unwind on c nt).result = .ok c') {s : Symbol} (hsh : s ∈ c.heads) (hne : s ≠ nt) :
    c'.rules.bodies s = c.rules.bodies s := by
  rcases unwind_ok_cases h with ⟨_, rfl⟩ | ⟨_, aux, allocator, halloc, rfl⟩
  · rfl
  · obtain ⟨_, _, hnew, _⟩ := hs.allocated halloc
    exact (hs.unwound hnt halloc).other_bodies s hne fun he => hnew (he ▸ hsh)

/-- The bodies after unwinding have the shapes of their kind of nonterminal. -/
theorem shapes_unwind {on : Bool} {i : Nat} (hs : Sound terminals c₀ c) (hi : Raised i c)
    (hnt : nt ∈ c.ranked) (h : (unwind on c nt).result = .ok c') :
    (∀ s ∈ c'.ranked, ∀ b ∈ c'.rules.bodies s, b.Shaped c'.ranked) ∧
      ∀ s ∈ c'.auxiliary, ∀ b ∈ c'.rules.bodies s, b.Headed c'.ranked := by
  have hnth := mem_heads_of_mem_ranked hnt
  have hkeep := fun s => bodies_unwind_ne (s := s) hs hnth h
  rcases unwind_ok_cases h with ⟨_, rfl⟩ | ⟨_, aux, allocator, halloc, rfl⟩
  · exact ⟨hi.shaped, hi.tails⟩
  · have U := hs.unwound hnth halloc
    have hupper : ∀ y ∈ [aux], y.isUpper = true :=
      List.forall_mem_singleton.mpr (hs.allocated halloc).2.1
    refine ⟨fun s hm b hb => ?_, List.forall_mem_append.mpr ⟨fun s hm b hb => ?_, ?_⟩⟩
    · by_cases hsn : s = nt
      · subst hsn
        rcases (U.head_bodies b).mp hb with hb | ⟨a, ha, rfl⟩
        · exact hi.shaped s hm b (U.base_sub b hb)
        · exact (hi.shaped s hm a (U.base_sub a ha)).append hupper
      · rw [hkeep s (mem_heads_of_mem_ranked hm) hsn] at hb
        exact hi.shaped s hm b hb
    · rw [hkeep s (List.mem_append_right _ hm) (hs.ne_of_mem_auxiliary hnt hm)] at hb
      exact hi.tails s hm b hb
    · -- a body of the fresh nonterminal is the tail of a body that starts with two ranked ones
      have htail : ∀ a ∈ recursiveTails nt (c.rules.bodies nt), a.Headed c.ranked := fun a ha =>
        ((hi.shaped nt hnt _ (U.tails_sub a ha)).tail_headed (hs.not_lower_of_mem_heads hnth)).2
      refine List.forall_mem_singleton.mpr fun b hb => ?_
      rcases (U.aux_bodies b).mp hb with hb | ⟨a, ha, rfl⟩
      · exact htail b hb
      · exact (htail a ha).append hupper

theorem ranked_unwind {on : Bool} (h : (Conversion.unwind on c nt).result = .ok c') :
    c'.ranked = c.ranked := by
  rcases unwind_ok_cases h with ⟨_, rfl⟩ | ⟨_, aux, allocator, _, rfl⟩
  · rfl
  · rfl

/-- **Unwinding takes the invariant one rank up**, once no lower rank is in the lead. -/
theorem unwind {on : Bool} (hs : Sound terminals c₀ c) (hr : c.ranked = pre ++ nt :: rest)
    (hi : Raised pre.length c) (hlow : ∀ x, c.rules.Leads nt x → x ∉ pre)
    (h : (Conversion.unwind on c nt).result = .ok c') : Raised (pre.length + 1) c' := by
  have hnt : nt ∈ c.ranked := hr ▸ by simp
  obtain ⟨hshaped, htails⟩ := shapes_unwind hs hi hnt h
  have hranked := ranked_unwind h
  have hrank : ∀ s, c'.rank s = c.rank s := fun s => by unfold rank; rw [hranked]
  refine ⟨hshaped, fun s x hlt hx => ?_, htails⟩
  rw [hrank] at hlt
  rw [hrank, hrank]
  by_cases hsn : s = nt
  · subst hsn
    obtain ⟨hne, hx⟩ := (leads_unwind hs hi hnt h x).mp hx
    rw [rank_eq_length hr (hs.not_mem_lower hr)]
    exact length_lt_rank hr (hlow x hx) hne
  · have hsp := mem_lower_of_rank_lt_succ hr hlt hsn
    have hsr : s ∈ c.ranked := hr ▸ List.mem_append_left _ hsp
    unfold RuleTable.Leads at hx
    rw [bodies_unwind_ne hs (mem_heads_of_mem_ranked hnt) h (mem_heads_of_mem_ranked hsr) hsn] at hx
    exact hi.ascending s x ((rank_lt_length_iff hr).mpr hsp) hx

/-- **There is a base body**, since every nonterminal derives a word. -/
theorem exists_base (hs : Sound terminals c₀ c) (hnt : nt ∈ c.heads) :
    baseBodies nt (c.rules.bodies nt) ≠ [] := by
  intro hnil
  obtain ⟨w, hw⟩ := hs.productive nt hnt
  refine not_derives_of_forall_self (hs.not_lower_of_mem_heads hnt) (fun b hb => ?_) w hw
  by_contra hne
  have hbase : b ∈ baseBodies nt (c.rules.bodies nt) :=
    mem_baseBodies.mpr ⟨hb, fun rest he => hne ⟨rest, he⟩⟩
  rw [hnil] at hbase
  cases hbase

/-- **Unwinding fails only for want of a letter**: for a left recursive nonterminal, with all letters
    in use. -/
theorem unwind_cases (on : Bool) {i : Nat} (hs : Sound terminals c₀ c) (hi : Raised i c)
    (hnt : nt ∈ c.ranked) :
    (∃ c', (Conversion.unwind on c nt).result = .ok c') ∨
    ((∃ text, (Conversion.unwind on c nt).result =
        .error (.conversion .identifierSpaceExhausted text none)) ∧
      26 ≤ c.heads.length ∧ c.rules.Leads nt nt) := by
  have hbase := exists_base hs (mem_heads_of_mem_ranked hnt)
  rw [unwind_result]
  by_cases hrec : recursiveTails nt (c.rules.bodies nt) = []
  · rw [if_pos (List.isEmpty_iff.mpr hrec)]
    exact Or.inl ⟨c, rfl⟩
  · rw [if_neg fun he => hrec (List.isEmpty_iff.mp he), if_neg fun he => hbase (List.isEmpty_iff.mp he)]
    by_cases hroom : 64 < c.allocator.next.code
    · have hfree : c.allocator.next ∉ c.allocator.used := fun hu =>
        absurd (hs.used_above _ hu) (Int.lt_irrefl _)
      rw [Allocator.allocate_of_room hroom hfree]
      exact Or.inl ⟨_, rfl⟩
    · obtain ⟨text, after, hfull⟩ := Allocator.allocate_of_full (Int.not_lt.mp hroom)
      rw [hfull]
      have := hs.next_eq
      exact Or.inr ⟨⟨text, rfl⟩, by omega, (recursiveTails_ne_nil_iff hs hi hnt).mp hrec⟩

end Raised

end Conversion

/-! ## Grammars in Chomsky form -/

namespace Chomsky

open Conversion

/-- A body in Chomsky form is a terminal, or two nonterminals. -/
theorem body_cases (c : Chomsky) {s : Symbol} {b : Body}
    (hb : b ∈ RuleTable.bodies c.grammar.entries s) :
    (∃ x ∈ c.grammar.terminals, b = [x]) ∨
      ∃ x ∈ c.grammar.nonterminals, ∃ y ∈ c.grammar.nonterminals, b = [x, y] := by
  obtain ⟨bs, hbs, hmem⟩ := c.grammar.wellFormed.bodies_mem hb
  have hform : c.grammar.isChomskyBody b = true :=
    List.all_eq_true.mp c.form b (List.mem_flatten.mpr ⟨bs, hbs, hmem⟩)
  match b, hform with
  | [x], hx => exact Or.inl ⟨x, List.contains_iff_mem.mp hx, rfl⟩
  | [x, y], hxy =>
      obtain ⟨hx, hy⟩ := Bool.and_eq_true_iff.mp hxy
      exact Or.inr ⟨x, List.contains_iff_mem.mp hx, y, List.contains_iff_mem.mp hy, rfl⟩

/-- **The conversion of a grammar in Chomsky form starts with bodies of the two shapes.** -/
theorem raised_assign (c : Chomsky) : Raised 0 (assign c.grammar.toParts) := by
  have hp := c.grammar.wellFormed
  refine ⟨fun s _ b' hb' => ?_, fun s x hlt => absurd hlt (Nat.not_lt_zero _), fun s hm => by cases hm⟩
  obtain ⟨nt, _, b, hb, _, rfl⟩ := exists_body_of_assign hp hb'
  rcases c.body_cases hb with ⟨x, hx, rfl⟩ | ⟨x, hx, y, hy, rfl⟩
  · have hlow := hp.terminals_lower x hx
    refine Or.inl ⟨?_, fun y hy => by cases hy⟩
    rw [rename_terminal hp hlow]
    exact hlow
  · exact Or.inr ⟨rename_mem_lastLetters hp hx, rename_mem_lastLetters hp hy, fun z hz => by cases hz⟩

end Chomsky

end LetterGrammar
