import LetterGrammar.Proofs.Greibach.Ranks

/-!
# Which nonterminals need a fresh letter

A nonterminal needs a fresh letter when, at its turn in the elimination, one of its bodies starts with
itself. What its bodies start with at that turn can be read off the grammar as it was at the start: the
symbols at the end of a path of leading symbols all of whose inner places have lower ranks. So the
nonterminals that need a letter are those on a cycle of leading symbols in which they have the highest
rank.

## Contents

- **`Through`**, **`reach_iff`**: paths with inner places below a rank, and how they are put together.
- **`leading_settle`**: what bodies start with after rounds of replacement.
- **`Retraced`**: the leading symbols of a state, in terms of the starting state.
- **`Retraced.eliminateAt`**: a step of the elimination keeps it.
- **`Chomsky.Closing`**, **`closing_iff_recursive`**: the nonterminals that need a letter, read off the
  grammar.
-/

namespace LetterGrammar

open Relation (ReflTransGen TransGen)

/-! ## Paths below a rank -/

section Paths

variable {α : Type}

/-- A step from a place below rank `k`. -/
def StepBelow (E : α → α → Prop) (rank : α → Nat) (k : Nat) (a b : α) : Prop :=
  rank a < k ∧ E a b

/-- There is a path of at least one step, with inner places below rank `k`. -/
def Through (E : α → α → Prop) (rank : α → Nat) (k : Nat) (a b : α) : Prop :=
  ∃ m, E a m ∧ ReflTransGen (StepBelow E rank k) m b

variable {E L : α → α → Prop} {rank : α → Nat} {i k : Nat} {a b m : α}

theorem reach_mono {j : Nat} (hjk : j ≤ k) (h : ReflTransGen (StepBelow E rank j) a b) :
    ReflTransGen (StepBelow E rank k) a b :=
  ReflTransGen.mono (fun _ _ hstep => ⟨Nat.lt_of_lt_of_le hstep.1 hjk, hstep.2⟩) _ _ h

/-- A path from a place below rank `k` through places below that place. -/
theorem Through.reach (ha : rank a < k) (h : Through E rank (rank a) a b) :
    ReflTransGen (StepBelow E rank k) a b := by
  obtain ⟨m, hm, hpath⟩ := h
  exact .head ⟨ha, hm⟩ (reach_mono (Nat.le_of_lt ha) hpath)

section Settled

variable (hset : ∀ a b, rank a < i → (L a b ↔ Through E rank (rank a) a b ∧ rank a < rank b))
include hset

/-- A path of long steps to a place at or above rank `i` has a first place at or above any rank `k` up
    to `i`, and the way there is a path of short steps below `k`. -/
theorem exists_exit (hk : k ≤ i) (hb : i ≤ rank b) (h : ReflTransGen (StepBelow L rank i) m b) :
    ∃ q, ReflTransGen (StepBelow E rank k) m q ∧ k ≤ rank q ∧ ReflTransGen (StepBelow L rank i) q b := by
  induction h using ReflTransGen.head_induction_on with
  | refl => exact ⟨b, .refl, Nat.le_trans hk hb, .refl⟩
  | @head m m' hstep hrest ih =>
      by_cases hm : rank m < k
      · obtain ⟨q, hq, hkq, hqb⟩ := ih
        exact ⟨q, (((hset m m' hstep.1).mp hstep.2).1.reach hm).trans hq, hkq, hqb⟩
      · exact ⟨m, .refl, Nat.not_lt.mp hm, .head hstep hrest⟩

/-- **Long steps go as far as short steps.** If the steps of `L` below rank `i` are the paths of `E`
    that end above where they begin, with inner places below that, then to places at or above rank `i`
    the paths of `L` and of `E` through places below `i` are the same. -/
theorem reach_iff (hinj : ∀ a b, rank a < i → rank a = rank b → a = b) (hb : i ≤ rank b) :
    ReflTransGen (StepBelow L rank i) a b ↔ ReflTransGen (StepBelow E rank i) a b := by
  constructor
  · intro h
    induction h using ReflTransGen.head_induction_on with
    | refl => exact .refl
    | @head a m hstep _ ih => exact (((hset a m hstep.1).mp hstep.2).1.reach hstep.1).trans ih
  · intro h
    induction h using ReflTransGen.head_induction_on with
    | refl => exact .refl
    | @head a m hstep _ ih =>
        obtain ⟨ha, hE⟩ := hstep
        obtain ⟨q, hmq, haq, hqb⟩ := exists_exit hset (Nat.le_of_lt ha) hb ih
        rcases Nat.lt_or_eq_of_le haq with hlt | heq
        · exact .head ⟨ha, (hset a q ha).mpr ⟨⟨m, hE, hmq⟩, hlt⟩⟩ hqb
        · -- the path comes back to where it began, so the way up to there can be left out
          rw [hinj a q ha heq]
          exact hqb

end Settled

/-- A cycle through a place that is its highest: the way back can be taken to end at the first
    return. -/
theorem transGen_self_iff (hinj : ∀ b, rank b = rank a → b = a) :
    TransGen (fun x y => E x y ∧ rank x ≤ rank a) a a ↔ Through E rank (rank a) a a := by
  constructor
  · intro h
    obtain ⟨m, hm, hpath⟩ := TransGen.head'_iff.mp h
    -- along the way back, forget what came before a return to `a`
    refine ⟨m, hm.1, ?_⟩
    clear hm h
    induction hpath using ReflTransGen.head_induction_on with
    | refl => exact .refl
    | @head x y hstep _ ih =>
        rcases Nat.lt_or_eq_of_le hstep.2 with hlt | heq
        · exact .head ⟨hlt, hstep.1⟩ ih
        · rw [hinj x heq]
  · rintro ⟨m, hm, hpath⟩
    refine TransGen.head'_iff.mpr ⟨m, ⟨hm, Nat.le_refl _⟩, ?_⟩
    exact ReflTransGen.mono (fun x y hstep => ⟨hstep.2, Nat.le_of_lt hstep.1⟩) _ _ hpath

end Paths

/-! ## Leading symbols under replacement -/

section Leading

open RuleTable

variable {lead : Symbol → Bool} {t : RuleTable}

/-- What a round puts in the lead: what was there and stays, and what leads the rules of what does
    not. -/
theorem leading_round {bs : List Body} (hbs : ∀ b ∈ bs, b.IsScalar)
    (ht : ∀ s, ∀ q ∈ t.bodies s, q.IsScalar) (hne : ∀ s, lead s = true → [] ∉ t.bodies s) (x : Symbol) :
    Body.Leading (Body.distinct (bs.flatMap (expandLeading lead t))) x ↔
      ∃ y, Body.Leading bs y ∧ ((lead y = false ∧ y = x) ∨ (lead y = true ∧ t.Leads y x)) := by
  unfold Body.Leading
  simp only [mem_round hbs ht]
  constructor
  · rintro ⟨rest, b, hb, hexp⟩
    rcases mem_expandLeading.mp hexp with ⟨hstart, rfl⟩ | ⟨y, tail, q, rfl, hy, hq, happ⟩
    · exact ⟨x, ⟨rest, hb⟩, Or.inl ⟨hstart, rfl⟩⟩
    · cases q with
      | nil => exact absurd hq (hne y hy)
      | cons z q =>
          injection happ with hzx _
          exact ⟨y, ⟨tail, hb⟩, Or.inr ⟨hy, q, hzx ▸ hq⟩⟩
  · rintro ⟨y, ⟨tail, hb⟩, ⟨hy, rfl⟩ | ⟨hy, q, hq⟩⟩
    · exact ⟨tail, y :: tail, hb, mem_expandLeading.mpr (Or.inl ⟨hy, rfl⟩)⟩
    · exact ⟨q ++ tail, y :: tail, hb, mem_expandLeading.mpr (Or.inr ⟨y, tail, x :: q, rfl, hy, hq, rfl⟩)⟩

/-- **After rounds of replacement**, the symbols in the lead are those outside the class that can be
    reached from the leading symbols at the start through leading symbols in the class. -/
theorem leading_settle {flaw? : Body → Option Fault} {stuck : Fault} {rounds : Nat} {bs out : List Body}
    (hbs : ∀ b ∈ bs, b.IsScalar) (ht : ∀ s, ∀ q ∈ t.bodies s, q.IsScalar)
    (hne : ∀ s, lead s = true → [] ∉ t.bodies s)
    (h : settle lead flaw? stuck t rounds bs = .ok out) (x : Symbol) :
    Body.Leading out x ↔ lead x = false ∧
      ∃ y, Body.Leading bs y ∧ ReflTransGen (fun a b => lead a = true ∧ t.Leads a b) y x := by
  induction rounds generalizing bs with
  | zero => cases h
  | succ rounds ih =>
      have hnext := leading_round hbs ht hne
      have hscalar : ∀ b ∈ Body.distinct (bs.flatMap (expandLeading lead t)), b.IsScalar := fun b hb =>
        isScalar_round hbs ht b (Body.mem_of_mem_distinct hb)
      rw [settle_succ] at h
      cases hflaw : bs.findSome? flaw? with
      | some f => rw [hflaw] at h; cases h
      | none =>
          rw [hflaw] at h
          by_cases hany : bs.any (startsIn lead) = true
          · simp only [hany, if_true] at h
            rw [ih hscalar h]
            refine and_congr_right fun hx => ⟨?_, ?_⟩
            · rintro ⟨z, hz, hzx⟩
              rcases (hnext z).mp hz with ⟨y, hy, ⟨_, rfl⟩ | ⟨hlead, hyz⟩⟩
              · exact ⟨y, hy, hzx⟩
              · exact ⟨y, hy, .head ⟨hlead, hyz⟩ hzx⟩
            · rintro ⟨y, hy, hyx⟩
              rcases hyx.cases_head with rfl | ⟨z, ⟨hlead, hyz⟩, hzx⟩
              · exact ⟨y, (hnext y).mpr ⟨y, hy, Or.inl ⟨hx, rfl⟩⟩, .refl⟩
              · exact ⟨z, (hnext z).mpr ⟨y, hy, Or.inr ⟨hlead, hyz⟩⟩, hzx⟩
          · -- nothing in the class is in the lead, so no path goes anywhere
            have hout : ∀ y, Body.Leading bs y → lead y = false := by
              rintro y ⟨tail, hb⟩
              exact Bool.eq_false_iff.mpr fun hy => hany (List.any_eq_true.mpr ⟨y :: tail, hb, hy⟩)
            simp only [Bool.eq_false_iff.mpr hany, Bool.false_eq_true, if_false, Except.ok.injEq] at h
            subst h
            rw [hnext]
            constructor
            · rintro ⟨y, hy, ⟨hfalse, rfl⟩ | ⟨hlead, _⟩⟩
              · exact ⟨hfalse, y, hy, .refl⟩
              · exact absurd hlead (Bool.eq_false_iff.mp (hout y hy))
            · rintro ⟨hx, y, hy, hyx⟩
              rcases hyx.cases_head with rfl | ⟨z, ⟨hlead, _⟩, _⟩
              · exact ⟨y, hy, Or.inl ⟨hx, rfl⟩⟩
              · exact absurd hlead (Bool.eq_false_iff.mp (hout y hy))

end Leading

/-! ## The leading symbols of a state -/

namespace Conversion

open RuleTable

/-- The nonterminal leads itself through lower ranks. -/
def Recursive (c : Conversion) (s : Symbol) : Prop :=
  Through c.rules.Leads c.rank (c.rank s) s s

open Classical in
/-- How many of the symbols are recursive. -/
noncomputable def recursives (c : Conversion) (l : List Symbol) : Nat :=
  l.countP fun s => decide (c.Recursive s)

theorem recursives_append (c : Conversion) (l l' : List Symbol) :
    c.recursives (l ++ l') = c.recursives l + c.recursives l' :=
  List.countP_append

open Classical in
theorem recursives_cons_of_recursive {c : Conversion} {s : Symbol} (h : c.Recursive s)
    (l : List Symbol) : c.recursives (s :: l) = c.recursives l + 1 := by
  unfold recursives
  rw [List.countP_cons_of_pos]
  exact decide_eq_true h

open Classical in
theorem recursives_cons_of_not {c : Conversion} {s : Symbol} (h : ¬ c.Recursive s)
    (l : List Symbol) : c.recursives (s :: l) = c.recursives l := by
  unfold recursives
  rw [List.countP_cons_of_neg]
  exact fun hd => h (of_decide_eq_true hd)

/-- The leading symbols of a state with the ranks below `i` done, in terms of the starting state. -/
structure Retraced (c₀ : Conversion) (i : Nat) (c : Conversion) : Prop where
  settled : ∀ s x, c₀.rank s < i → (c.rules.Leads s x ↔
    Through c₀.rules.Leads c₀.rank (c₀.rank s) s x ∧ c₀.rank s < c₀.rank x)
  waiting : ∀ s ∈ c₀.ranked, i ≤ c₀.rank s → c.rules.bodies s = c₀.rules.bodies s
  /-- One fresh nonterminal was made for each recursive one that is done. -/
  fresh : c.auxiliary.length = c₀.recursives (c₀.ranked.take i)

theorem Sound.rank_eq {terminals : List Symbol} {c₀ c : Conversion} (hs : Sound terminals c₀ c) :
    c.rank = c₀.rank := by
  funext s
  unfold rank
  rw [hs.ranked_eq]

theorem Sound.rank_start {terminals : List Symbol} {c₀ c : Conversion} (hs : Sound terminals c₀ c)
    {pre rest : List Symbol} {nt : Symbol} (hr : c.ranked = pre ++ nt :: rest) :
    c₀.rank nt = pre.length := by
  rw [← hs.rank_eq]
  exact rank_eq_length hr (hs.not_mem_lower hr)

namespace Retraced

variable {terminals : List Symbol} {c₀ c c' : Conversion} {pre rest : List Symbol} {nt : Symbol}

theorem start (h : c₀.auxiliary = []) : Retraced c₀ 0 c₀ where
  settled := fun s x hlt => absurd hlt (Nat.not_lt_zero _)
  waiting := fun _ _ _ => rfl
  fresh := by rw [h]; rfl

variable (hs : Sound terminals c₀ c) (hr : c.ranked = pre ++ nt :: rest) (hi : Raised pre.length c)
variable (ht : Retraced c₀ pre.length c) {bodies : List Body} (h : c.raise pre.length nt = .ok bodies)
include hs hr hi ht h

/-- **What leads a nonterminal at its turn**: the ends of paths through lower ranks. -/
theorem leads_raise (x : Symbol) :
    (c.replaced nt bodies).rules.Leads nt x ↔
      x ∉ pre ∧ Through c₀.rules.Leads c₀.rank (c₀.rank nt) nt x := by
  have hmem : ∀ s ∈ pre, s ∈ c.ranked := fun s hm => hr ▸ List.mem_append_left _ hm
  have hrank := hs.rank_start hr
  have hlow : ∀ s, s ∈ pre ↔ c₀.rank s < pre.length := fun s => by
    rw [← hs.rank_eq]
    exact (rank_lt_length_iff hr).symm
  have hinj : ∀ a b, c₀.rank a < pre.length → c₀.rank a = c₀.rank b → a = b := fun a b ha hab => by
    refine rank_inj ?_ hab
    rw [← hs.ranked_eq]
    exact hmem a ((hlow a).mpr ha)
  have hscalar : ∀ s, ∀ b ∈ c.rules.bodies s, b.IsScalar := fun s b hb => hs.isScalar (hs.spelled s b hb)
  have hnt : c.rules.bodies nt = c₀.rules.bodies nt :=
    ht.waiting nt (by rw [← hs.ranked_eq, hr]; simp) (Nat.le_of_eq hrank.symm)
  unfold RuleTable.Leads
  rw [show (c.replaced nt bodies).rules.bodies nt = bodies from bodies_set_self .., hrank,
    leading_settle (hscalar nt) hscalar (fun s hl hnil => ?_) h]
  · have hclass : ∀ s, ((c.ranked.take pre.length).contains s = false ↔ s ∉ pre) := fun s => by
      rw [← Raised.raise_lead hr, Bool.not_eq_true]
    -- the rounds follow the leading symbols of the table as it is now: long steps, as far as it is done
    have hstep : (fun a b => (c.ranked.take pre.length).contains a = true ∧ c.rules.Leads a b) =
        StepBelow c.rules.Leads c₀.rank pre.length := by
      funext a b
      rw [Raised.raise_lead hr, hlow]
      rfl
    rw [hclass, hstep, hnt]
    refine and_congr_right fun hx => exists_congr fun y => and_congr_right fun _ => ?_
    exact reach_iff ht.settled hinj (Nat.not_lt.mp fun hlt => hx ((hlow x).mpr hlt))
  · exact (hi.shaped s (hmem s ((Raised.raise_lead hr).mp hl)) [] hnil).ne_nil rfl

/-- At its turn a nonterminal leads itself exactly when it is recursive. -/
theorem leads_self_iff :
    (c.replaced nt bodies).rules.Leads nt nt ↔ c₀.Recursive nt := by
  rw [leads_raise hs hr hi ht h]
  exact and_iff_right (hs.not_mem_lower hr)

/-- The number of fresh nonterminals after the turn of a nonterminal. -/
theorem length_auxiliary_unwind {on : Bool}
    (hu : (unwind on (c.replaced nt bodies) nt).result = .ok c') :
    c'.auxiliary.length = c₀.recursives (c₀.ranked.take (pre.length + 1)) := by
  have hs₁ := hs.raise hr h
  have hi₁ := (hi.raise hs hr h).1
  have hnt : nt ∈ (c.replaced nt bodies).ranked := by
    show nt ∈ c.ranked
    rw [hr]
    simp
  have htake : c₀.ranked.take (pre.length + 1) = c₀.ranked.take pre.length ++ [nt] := by
    rw [← hs.ranked_eq, hr, List.take_left, List.take_append, List.take_of_length_le (by omega)]
    simp
  have hrec := (Raised.recursiveTails_ne_nil_iff hs₁ hi₁ hnt).trans (leads_self_iff hs hr hi ht h)
  rw [htake, recursives_append, ← ht.fresh]
  rcases unwind_ok_cases hu with ⟨hnil, rfl⟩ | ⟨hne, aux, allocator, _, rfl⟩
  · rw [recursives_cons_of_not fun hn => hrec.mpr hn hnil]
    rfl
  · rw [recursives_cons_of_recursive (hrec.mp hne)]
    exact List.length_append

/-- **A step of the elimination keeps the account of leading symbols.** -/
theorem eliminateAt {on : Bool}
    (hu : (unwind on (c.replaced nt bodies) nt).result = .ok c') : Retraced c₀ (pre.length + 1) c' := by
  have hs₁ := hs.raise hr h
  have hi₁ := (hi.raise hs hr h).1
  have hnt : nt ∈ c.ranked := hr ▸ by simp
  have hrank := hs.rank_start hr
  have hkeep : ∀ s ∈ c₀.ranked, s ≠ nt → c'.rules.bodies s = c.rules.bodies s := by
    intro s hm hne
    rw [← hs.ranked_eq] at hm
    have hsh : s ∈ (c.replaced nt bodies).heads := mem_heads_of_mem_ranked hm
    rw [Raised.bodies_unwind_ne hs₁ (mem_heads_of_mem_ranked hnt) hu hsh hne]
    exact bodies_set_ne hne ..
  refine ⟨fun s x hlt => ?_, fun s hm hle => ?_, length_auxiliary_unwind hs hr hi ht h hu⟩
  · by_cases hsn : s = nt
    · -- what leads it at its turn, less the nonterminal itself, is what lies above its rank
      subst hsn
      rw [Raised.leads_unwind hs₁ hi₁ hnt hu, leads_raise hs hr hi ht h, ← and_assoc, and_comm]
      refine and_congr_right fun _ => ?_
      rw [← hs.rank_eq] at hrank ⊢
      rw [hrank]
      refine ⟨fun ⟨hne, hxp⟩ => length_lt_rank hr hxp hne, fun hlt' => ⟨?_, fun hxp => ?_⟩⟩
      · rintro rfl
        omega
      · have := (rank_lt_length_iff hr).mpr hxp
        omega
    · have hsp : s ∈ pre := mem_lower_of_rank_lt_succ hr (by rw [hs.rank_eq]; exact hlt) hsn
      have hsr : s ∈ c₀.ranked := by
        rw [← hs.ranked_eq, hr]
        exact List.mem_append_left _ hsp
      have hlt' : c₀.rank s < pre.length := by
        rw [← hs.rank_eq]
        exact (rank_lt_length_iff hr).mpr hsp
      unfold RuleTable.Leads
      rw [hkeep s hsr hsn]
      exact ht.settled s x hlt'
  · have hsn : s ≠ nt := by
      rintro rfl
      omega
    rw [hkeep s hm hsn]
    exact ht.waiting s hm (by omega)

end Retraced

end Conversion

/-! ## Closing nonterminals -/

namespace Chomsky

open Conversion RuleTable

/-- There is an edge from a nonterminal to the first symbol of each of its bodies of two symbols. -/
def Edge (c : Chomsky) (a b : Symbol) : Prop :=
  ∃ z, [b, z] ∈ bodies c.grammar.entries a

/-- The position of a nonterminal in its declaration. -/
def position (c : Chomsky) (a : Symbol) : Nat :=
  c.grammar.nonterminals.idxOf a

/-- A cycle of edges goes through the nonterminal and visits none declared after it. -/
def Closing (c : Chomsky) (a : Symbol) : Prop :=
  TransGen (fun x y => c.Edge x y ∧ c.position x ≤ c.position a) a a

section Edges

variable (c : Chomsky)

/-- The first symbol of a body of two, as a body. -/
def firstOfPair : Body → Option Body
  | [b, _] => some [b]
  | _ => none

/-- The edges between nonterminals declared no later than the given one, as a table. -/
def edgesUpTo (a : Symbol) : RuleTable :=
  (c.grammar.nonterminals.filter fun x => c.position x ≤ c.position a).zip
    ((c.grammar.nonterminals.filter fun x => c.position x ≤ c.position a).map fun x =>
      (bodies c.grammar.entries x).filterMap firstOfPair)

theorem edge_mem {a b : Symbol} (h : c.Edge a b) :
    a ∈ c.grammar.nonterminals ∧ b ∈ c.grammar.nonterminals := by
  obtain ⟨z, hz⟩ := h
  have ha := mem_heads_of_mem_bodies hz
  rw [Parts.heads_entries c.grammar.wellFormed.count] at ha
  refine ⟨ha, ?_⟩
  rcases c.body_cases hz with ⟨x, _, hx⟩ | ⟨x, hx, y, _, hxy⟩
  · cases hx
  · injection hxy with hbx _
    exact hbx ▸ hx

theorem firstOfPair_eq_some {b b' : Body} : firstOfPair b = some b' ↔ ∃ y z, b = [y, z] ∧ b' = [y] := by
  unfold firstOfPair
  split
  · simp [eq_comm]
  · rename_i hne
    refine ⟨fun h => (by cases h), ?_⟩
    rintro ⟨y, z, rfl, _⟩
    exact absurd rfl (hne y z)

/-- The table has exactly these edges. -/
theorem mentions_edgesUpTo {a x y : Symbol} :
    (c.edgesUpTo a).Mentions x y ↔ c.Edge x y ∧ c.position x ≤ c.position a := by
  by_cases hx : x ∈ c.grammar.nonterminals.filter fun x => c.position x ≤ c.position a
  · unfold RuleTable.Mentions edgesUpTo
    rw [bodies_zip_map _ _ hx]
    constructor
    · rintro ⟨_, b', hb', hy⟩
      obtain ⟨b, hb, hfirst⟩ := List.mem_filterMap.mp hb'
      obtain ⟨y', z, rfl, rfl⟩ := firstOfPair_eq_some.mp hfirst
      rw [List.mem_singleton.mp hy]
      exact ⟨⟨z, hb⟩, of_decide_eq_true (List.mem_filter.mp hx).2⟩
    · rintro ⟨⟨z, hz⟩, _⟩
      refine ⟨c.grammar.wellFormed.nonterminals_upper y (c.edge_mem ⟨z, hz⟩).2, [y], ?_, by simp⟩
      exact List.mem_filterMap.mpr ⟨[y, z], hz, rfl⟩
  · refine ⟨?_, fun ⟨hedge, hle⟩ => ?_⟩
    · rintro ⟨_, b', hb', _⟩
      have hmem := mem_heads_of_mem_bodies hb'
      unfold RuleTable.heads edgesUpTo at hmem
      rw [List.map_fst_zip (Nat.le_of_eq (List.length_map _).symm)] at hmem
      exact absurd hmem hx
    · exact absurd (List.mem_filter.mpr ⟨(c.edge_mem hedge).1, decide_eq_true hle⟩) hx

/-- A nonterminal is closing when a walk along these edges leads back to it. -/
theorem closing_iff_reachable {a : Symbol} : c.Closing a ↔
    (((c.edgesUpTo a).bodies a).flatten.filter Symbol.isUpper).any
      (fun b => ((c.edgesUpTo a).reachable b).contains a) = true := by
  have hrel : (fun x y => c.Edge x y ∧ c.position x ≤ c.position a) = (c.edgesUpTo a).Mentions := by
    funext x y
    exact propext c.mentions_edgesUpTo.symm
  unfold Closing
  rw [hrel, TransGen.head'_iff, List.any_eq_true]
  refine exists_congr fun b => and_congr ?_ (mem_reachable_iff.symm.trans List.contains_iff_mem.symm)
  rw [List.mem_filter, List.mem_flatten, and_comm]
  rfl

instance (a : Symbol) : Decidable (c.Closing a) :=
  decidable_of_iff _ c.closing_iff_reachable.symm

/-- The closing nonterminals, in order. -/
def closing : List Symbol :=
  c.grammar.nonterminals.filter fun a => c.Closing a

end Edges

/-! ## Closing nonterminals need fresh letters -/

section Renamed

variable (c : Chomsky)

/-- The rank of the letter of a nonterminal is its position. -/
theorem rank_rename {a : Symbol} (ha : a ∈ c.grammar.nonterminals) :
    (assign c.grammar.toParts).rank (rename (newNames c.grammar.toParts) a) = c.position a := by
  have hpos : c.grammar.nonterminals[c.position a]? = some a := List.getElem?_idxOf ha
  have hlt := (List.getElem?_eq_some_iff.mp hpos).1
  rw [rename_nonterminal c.grammar.wellFormed.nonterminals_nodup hpos]
  obtain ⟨hlen, hget⟩ := List.getElem?_eq_some_iff.mp (getElem?_lastLetters hlt)
  rw [← hget]
  exact (lastLetters_nodup _).idxOf_getElem _ hlen

theorem rename_inj {a b : Symbol} (ha : a ∈ c.grammar.nonterminals) (hb : b ∈ c.grammar.nonterminals)
    (h : rename (newNames c.grammar.toParts) a = rename (newNames c.grammar.toParts) b) : a = b := by
  have hpos := congrArg (assign c.grammar.toParts).rank h
  rw [c.rank_rename ha, c.rank_rename hb] at hpos
  exact (List.idxOf_inj ha).mp hpos

/-- Among the letters of nonterminals, leading symbols are edges. -/
theorem leads_rename_iff {a b : Symbol} (ha : a ∈ c.grammar.nonterminals)
    (hb : b ∈ c.grammar.nonterminals) :
    (assign c.grammar.toParts).rules.Leads (rename (newNames c.grammar.toParts) a)
      (rename (newNames c.grammar.toParts) b) ↔ c.Edge a b := by
  have hp := c.grammar.wellFormed
  unfold RuleTable.Leads Body.Leading
  rw [bodies_assign hp ha]
  constructor
  · rintro ⟨tail, hmem⟩
    obtain ⟨body, hbody, heq⟩ := List.mem_map.mp hmem
    rcases c.body_cases hbody with ⟨x, hx, rfl⟩ | ⟨x, hx, y, _, rfl⟩
    · -- a terminal is no letter of a nonterminal
      have hlow := hp.terminals_lower x hx
      injection heq with hxb _
      rw [rename_terminal hp hlow] at hxb
      have hup := isUpper_of_mem_lastLetters hp (rename_mem_lastLetters hp hb)
      rw [← hxb] at hup
      rw [Symbol.isLower_eq_false_of_isUpper hup] at hlow
      cases hlow
    · injection heq with hxb _
      exact ⟨y, c.rename_inj hx hb hxb ▸ hbody⟩
  · rintro ⟨z, hz⟩
    exact ⟨[rename (newNames c.grammar.toParts) z], List.mem_map.mpr ⟨[b, z], hz, rfl⟩⟩

/-- A path of leading symbols to the letter of a nonterminal is a path of edges. -/
theorem exists_path_of_reach {k : Nat} {a m : Symbol} (hk : k ≤ c.grammar.nonterminals.length)
    (ha : a ∈ c.grammar.nonterminals)
    (h : ReflTransGen (StepBelow (assign c.grammar.toParts).rules.Leads
      (assign c.grammar.toParts).rank k) m (rename (newNames c.grammar.toParts) a)) :
    ∃ b ∈ c.grammar.nonterminals, m = rename (newNames c.grammar.toParts) b ∧
      ReflTransGen (StepBelow c.Edge c.position k) b a := by
  induction h using ReflTransGen.head_induction_on with
  | refl => exact ⟨a, ha, rfl, .refl⟩
  | @head m m' hstep _ ih =>
      obtain ⟨b', hb', rfl, hpath⟩ := ih
      obtain ⟨hlt, hlead⟩ := hstep
      have hm : m ∈ (assign c.grammar.toParts).ranked := by
        refine List.idxOf_lt_length_iff.mp (Nat.lt_of_lt_of_le hlt ?_)
        exact Nat.le_trans hk (Nat.le_of_eq (length_lastLetters _).symm)
      have hm' : m ∈ c.grammar.nonterminals.map (rename (newNames c.grammar.toParts)) := by
        rw [map_rename_nonterminals c.grammar.wellFormed]
        exact hm
      obtain ⟨b, hb, rfl⟩ := List.mem_map.mp hm'
      rw [c.rank_rename hb] at hlt
      exact ⟨b, hb, rfl, .head ⟨hlt, (c.leads_rename_iff hb hb').mp hlead⟩ hpath⟩

/-- **The closing nonterminals are those whose letters are recursive.** -/
theorem closing_iff_recursive {a : Symbol} (ha : a ∈ c.grammar.nonterminals) :
    c.Closing a ↔
      (assign c.grammar.toParts).Recursive (rename (newNames c.grammar.toParts) a) := by
  have hinj : ∀ b, c.position b = c.position a → b = a := fun b h => ((List.idxOf_inj ha).mp h.symm).symm
  unfold Closing Recursive
  rw [transGen_self_iff hinj, c.rank_rename ha]
  constructor
  · rintro ⟨m, hm, hpath⟩
    refine ⟨rename (newNames c.grammar.toParts) m, (c.leads_rename_iff ha (c.edge_mem hm).2).mpr hm, ?_⟩
    refine ReflTransGen.lift (rename (newNames c.grammar.toParts)) (fun x y hstep => ?_) _ _ hpath
    obtain ⟨hx, hy⟩ := c.edge_mem hstep.2
    refine ⟨?_, (c.leads_rename_iff hx hy).mpr hstep.2⟩
    rw [c.rank_rename hx]
    exact hstep.1
  · rintro ⟨m, hm, hpath⟩
    have hle : c.position a ≤ c.grammar.nonterminals.length := List.idxOf_le_length
    obtain ⟨b, hb, rfl, hpath'⟩ := c.exists_path_of_reach hle ha hpath
    exact ⟨b, (c.leads_rename_iff ha hb).mp hm, hpath'⟩

open Classical in
/-- As many letters are recursive as nonterminals are closing. -/
theorem recursives_assign :
    (assign c.grammar.toParts).recursives (assign c.grammar.toParts).ranked = c.closing.length := by
  show List.countP _ (lastLetters c.grammar.nonterminals.length) = _
  rw [← map_rename_nonterminals c.grammar.wellFormed, List.countP_map, closing,
    ← List.countP_eq_length_filter]
  refine List.countP_congr fun a ha => ?_
  rw [Function.comp_apply, decide_eq_true_iff, decide_eq_true_iff, c.closing_iff_recursive ha]

end Renamed

end Chomsky

end LetterGrammar
