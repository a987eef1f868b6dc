import LetterGrammar.Proofs.Greibach.Language

/-!
# What a conversion depends on

Two conversions that start from tables with the same sets of bodies go through states with the same
sets of bodies: every step reads a list of bodies for what is in it, and fresh letters are handed out in
the order of the ranks. The result lists each set in canonical order. So the result depends on the set of
bodies at each position only: not on the letters of the nonterminals, nor on the order of the bodies, nor
on repetitions.

## Contents

- **`Agree`**: computations with related results, or with faults of one kind.
- **`settle_agree`**: rounds of replacement on the same sets of bodies.
- **`Twins`**, **`Twins.eliminateAll`**, **`Twins.substituteAll`**: two runs side by side.
- **`SameUpToNames`**, **`twins_assign`**: grammars that start such runs.
- **`toGreibach_depends_on_ranked_sets`**: such grammars have the same conversion.
-/

namespace LetterGrammar

/-! ## Outcomes -/

/-- The faults are the same, or faults of a conversion of one kind that differ in their wording. -/
def Fault.SameKind (f f' : Fault) : Prop :=
  f = f' ∨ ∃ kind text text', f = .conversion kind text none ∧ f' = .conversion kind text' none

/-- Both computations succeed, with related results, or both fail, with faults of one kind. -/
inductive Agree {α β : Type} (R : α → β → Prop) : Except Fault α → Except Fault β → Prop
  | ok {a : α} {b : β} (h : R a b) : Agree R (.ok a) (.ok b)
  | error {f f' : Fault} (h : f.SameKind f') : Agree R (.error f) (.error f')

namespace Agree

theorem refl {α : Type} (x : Except Fault α) : Agree Eq x x := by
  cases x with
  | ok a => exact .ok rfl
  | error f => exact .error (Or.inl rfl)

/-- One computation after another agree when the first ones do, and the second ones on related
    results. -/
theorem bind {α β γ δ : Type} {R : α → β → Prop} {S : γ → δ → Prop} {x : Except Fault α}
    {y : Except Fault β} {f : α → Except Fault γ} {g : β → Except Fault δ} (h : Agree R x y)
    (hf : ∀ a b, x = .ok a → y = .ok b → R a b → Agree S (f a) (g b)) :
    Agree S (x >>= f) (y >>= g) := by
  cases h with
  | ok hR => exact hf _ _ rfl rfl hR
  | error hk => exact .error hk

end Agree

/-! ## Rounds of replacement -/

section Settle

variable {lead : Symbol → Bool} {flaw? : Body → Option Fault} {stuck : Fault} {t t' : RuleTable}

theorem mem_expandLeading_congr (ht : ∀ s b, b ∈ t.bodies s ↔ b ∈ t'.bodies s) {a b : Body} :
    b ∈ expandLeading lead t a ↔ b ∈ expandLeading lead t' a := by
  rw [RuleTable.mem_expandLeading, RuleTable.mem_expandLeading]
  simp only [ht]

/-- **Rounds of replacement on the same sets of bodies agree.** -/
theorem settle_agree (ht : ∀ s b, b ∈ t.bodies s ↔ b ∈ t'.bodies s)
    (hscalar : ∀ s, ∀ b ∈ t.bodies s, b.IsScalar)
    (hflaw : ∀ b f, flaw? b = some f → ∃ text, f = broken text) (rounds : Nat) {bs bs' : List Body}
    (hbs : ∀ b ∈ bs, b.IsScalar) (hsame : ∀ b, b ∈ bs ↔ b ∈ bs') :
    Agree (fun out out' => ∀ b, b ∈ out ↔ b ∈ out') (settle lead flaw? stuck t rounds bs)
      (settle lead flaw? stuck t' rounds bs') := by
  induction rounds generalizing bs bs' with
  | zero => exact .error (Or.inl rfl)
  | succ rounds ih =>
      have hscalar' : ∀ s, ∀ b ∈ t'.bodies s, b.IsScalar := fun s b hb => hscalar s b ((ht s b).mpr hb)
      have hbs' : ∀ b ∈ bs', b.IsScalar := fun b hb => hbs b ((hsame b).mpr hb)
      have hnext : ∀ b, b ∈ Body.distinct (bs.flatMap (expandLeading lead t)) ↔
          b ∈ Body.distinct (bs'.flatMap (expandLeading lead t')) := by
        intro b
        rw [mem_round hbs hscalar, mem_round hbs' hscalar']
        simp only [hsame, mem_expandLeading_congr ht]
      have hany : bs.any (startsIn lead) = bs'.any (startsIn lead) := by
        rw [Bool.eq_iff_iff, List.any_eq_true, List.any_eq_true]
        simp only [hsame]
      rw [settle_succ, settle_succ]
      cases hf : bs.findSome? flaw? with
      | none =>
          have hf' : bs'.findSome? flaw? = none := by
            rw [List.findSome?_eq_none_iff] at hf ⊢
            exact fun b hb => hf b ((hsame b).mpr hb)
          rw [hf', hany]
          by_cases hgo : bs'.any (startsIn lead) = true
          · simp only [hgo, if_true]
            refine ih (fun b hb => ?_) hnext
            exact isScalar_round hbs hscalar b (Body.mem_of_mem_distinct hb)
          · simp only [hgo]
            exact .ok hnext
      | some f =>
          -- the other run finds a flaw too, though maybe in another body
          obtain ⟨b, hb, hbf⟩ := List.exists_of_findSome?_eq_some hf
          cases hf' : bs'.findSome? flaw? with
          | none =>
              rw [List.findSome?_eq_none_iff.mp hf' b ((hsame b).mp hb)] at hbf
              cases hbf
          | some f' =>
              obtain ⟨b', _, hbf'⟩ := List.exists_of_findSome?_eq_some hf'
              obtain ⟨text, rfl⟩ := hflaw b f hbf
              obtain ⟨text', rfl⟩ := hflaw b' f' hbf'
              exact .error (Or.inr ⟨_, text, text', rfl, rfl⟩)

end Settle

/-! ## Two runs side by side -/

namespace Conversion

open RuleTable

/-- Two sound states, of conversions that started at `c₀` and `c₀'`, that differ at most in the order
    and the repetition of bodies. -/
structure Twins (terminals : List Symbol) (c₀ c₀' c c' : Conversion) : Prop where
  left : Sound terminals c₀ c
  right : Sound terminals c₀' c'
  ranked : c.ranked = c'.ranked
  auxiliary : c.auxiliary = c'.auxiliary
  allocator : c.allocator = c'.allocator
  bodies : ∀ s b, b ∈ c.rules.bodies s ↔ b ∈ c'.rules.bodies s

theorem emptyFlaw?_broken {nt : Symbol} {b : Body} {f : Fault} (h : emptyFlaw? nt b = some f) :
    ∃ text, f = broken text := by
  cases b with
  | nil =>
      injection h with h
      exact ⟨_, h.symm⟩
  | cons x rest => cases h

theorem recursionFlaw?_broken {nt : Symbol} {b : Body} {f : Fault} (h : recursionFlaw? nt b = some f) :
    ∃ text, f = broken text := by
  cases b with
  | nil =>
      injection h with h
      exact ⟨_, h.symm⟩
  | cons x rest =>
      by_cases hx : x = nt
      · rw [recursionFlaw?, if_pos hx] at h
        injection h with h
        exact ⟨_, h.symm⟩
      · rw [recursionFlaw?, if_neg hx] at h
        cases h

namespace Twins

variable {terminals : List Symbol} {c₀ c₀' c c' : Conversion} {nt : Symbol}
variable (h : Twins terminals c₀ c₀' c c')
include h

theorem heads_eq : c.heads = c'.heads := by
  unfold heads
  rw [h.ranked, h.auxiliary]

theorem isScalar (s : Symbol) : ∀ b ∈ c.rules.bodies s, b.IsScalar := fun b hb =>
  h.left.isScalar (h.left.spelled s b hb)

/-- New bodies for a nonterminal, the same sets in both states. -/
theorem replaced {bodies bodies' : List Body} (hsame : ∀ b, b ∈ bodies ↔ b ∈ bodies')
    (hl : Sound terminals c₀ (c.replaced nt bodies)) (hr : Sound terminals c₀' (c'.replaced nt bodies')) :
    Twins terminals c₀ c₀' (c.replaced nt bodies) (c'.replaced nt bodies') where
  left := hl
  right := hr
  ranked := h.ranked
  auxiliary := h.auxiliary
  allocator := h.allocator
  bodies := by
    intro s b
    unfold Conversion.replaced
    rw [bodies_set, bodies_set]
    by_cases hsn : s = nt
    · rw [if_pos hsn, if_pos hsn]
      exact hsame b
    · rw [if_neg hsn, if_neg hsn]
      exact h.bodies s b

/-- The detour through the same fresh letter. -/
theorem detoured {aux : Symbol} {allocator : Allocator} (hnt : nt ∈ c.heads)
    (hrec : recursiveTails nt (c.rules.bodies nt) ≠ [])
    (hrec' : recursiveTails nt (c'.rules.bodies nt) ≠ [])
    (halloc : c.allocator.allocate = (.ok aux, allocator)) :
    Twins terminals c₀ c₀' (c.detoured nt aux allocator) (c'.detoured nt aux allocator) := by
  have hnt' : nt ∈ c'.heads := h.heads_eq ▸ hnt
  have halloc' : c'.allocator.allocate = (.ok aux, allocator) := h.allocator ▸ halloc
  have U := h.left.unwound hnt halloc
  have U' := h.right.unwound hnt' halloc'
  refine ⟨h.left.detoured hnt hrec halloc, h.right.detoured hnt' hrec' halloc', h.ranked, ?_, rfl,
    fun s b => ?_⟩
  · show c.auxiliary ++ [aux] = c'.auxiliary ++ [aux]
    rw [h.auxiliary]
  · by_cases hsa : s = aux
    · subst hsa
      rw [U.aux_bodies, U'.aux_bodies]
      simp only [mem_recursiveTails, h.bodies]
    · by_cases hsn : s = nt
      · subst hsn
        rw [U.head_bodies, U'.head_bodies]
        simp only [mem_baseBodies, h.bodies]
      · rw [U.other_bodies s hsn hsa, U'.other_bodies s hsn hsa]
        exact h.bodies s b

/-- **Unwinding agrees.** -/
theorem unwind (on : Bool) (hnt : nt ∈ c.heads) :
    Agree (Twins terminals c₀ c₀') (unwind on c nt).result (unwind on c' nt).result := by
  have hnil : ∀ {l l' : List Body}, (∀ b, b ∈ l ↔ b ∈ l') → (l = [] ↔ l' = []) := by
    intro l l' hmem
    rw [List.eq_nil_iff_forall_not_mem, List.eq_nil_iff_forall_not_mem]
    simp only [hmem]
  have hrec : recursiveTails nt (c.rules.bodies nt) = [] ↔ recursiveTails nt (c'.rules.bodies nt) = [] :=
    hnil fun b => by simp only [mem_recursiveTails, h.bodies]
  have hbase : baseBodies nt (c.rules.bodies nt) = [] ↔ baseBodies nt (c'.rules.bodies nt) = [] :=
    hnil fun b => by simp only [mem_baseBodies, h.bodies]
  rw [unwind_result, unwind_result]
  simp only [List.isEmpty_iff]
  by_cases hr : recursiveTails nt (c.rules.bodies nt) = []
  · rw [if_pos hr, if_pos (hrec.mp hr)]
    exact .ok h
  · have hr' : recursiveTails nt (c'.rules.bodies nt) ≠ [] := fun he => hr (hrec.mpr he)
    rw [if_neg hr, if_neg hr']
    by_cases hb : baseBodies nt (c.rules.bodies nt) = []
    · rw [if_pos hb, if_pos (hbase.mp hb)]
      exact .error (Or.inl rfl)
    · rw [if_neg hb, if_neg fun he => hb (hbase.mpr he), ← h.allocator]
      match halloc : c.allocator.allocate with
      -- the allocators are equal, so they hand out one letter or fail alike
      | (.error f, _) => exact .error (Or.inl rfl)
      | (.ok aux, allocator) => exact .ok (h.detoured hnt hr hr' halloc)

/-- **A step of the elimination agrees.** -/
theorem eliminateAt (on : Bool) {pre rest : List Symbol} (hr : c.ranked = pre ++ nt :: rest) :
    Agree (Twins terminals c₀ c₀') (eliminateAt on c pre.length nt).result
      (eliminateAt on c' pre.length nt).result := by
  have hnt : nt ∈ c.heads := mem_heads_of_mem_ranked (hr ▸ by simp)
  have hraise : Agree (fun out out' => ∀ b, b ∈ out ↔ b ∈ out') (c.raise pre.length nt)
      (c'.raise pre.length nt) := by
    unfold raise
    rw [h.ranked]
    exact settle_agree h.bodies h.isScalar (fun b f => emptyFlaw?_broken) _ (h.isScalar nt)
      (h.bodies nt)
  rw [eliminateAt_result, eliminateAt_result]
  refine hraise.bind fun bodies bodies' hok hok' hsame => ?_
  exact (h.replaced hsame (h.left.raise hr hok) (h.right.raise (h.ranked ▸ hr) hok')).unwind on hnt

/-- **The elimination agrees.** -/
theorem eliminateAll (on : Bool) {pre rest : List Symbol} (hr : c.ranked = pre ++ rest) :
    Agree (Twins terminals c₀ c₀') (eliminateAll on c (rest.zipIdx pre.length)).result
      (eliminateAll on c' (rest.zipIdx pre.length)).result := by
  induction rest generalizing pre c c' with
  | nil => exact .ok h
  | cons nt rest ih =>
      rw [List.zipIdx_cons, eliminateAll_cons_result, eliminateAll_cons_result]
      refine (h.eliminateAt on hr).bind fun c₁ c₁' _ _ h₁ => ?_
      have hr₁ : c₁.ranked = (pre ++ [nt]) ++ rest := by
        rw [h₁.left.ranked_eq, ← h.left.ranked_eq, hr, List.append_cons]
      have hlen : (pre ++ [nt]).length = pre.length + 1 := List.length_append
      have hrest := ih h₁ hr₁
      rwa [hlen] at hrest

/-- **The substitution agrees.** -/
theorem substituteAll (on : Bool) {l : List Symbol} (hl : ∀ s ∈ l, s ∈ c.heads) :
    Agree (Twins terminals c₀ c₀') (substituteAll on c l).result (substituteAll on c' l).result := by
  induction l generalizing c c' with
  | nil => exact .ok h
  | cons nt l ih =>
      obtain ⟨hnt, hl'⟩ := List.forall_mem_cons.mp hl
      have hlength : c.rules.length = c'.rules.length := by
        rw [h.left.length_rules, h.right.length_rules, h.heads_eq]
      have hground : Agree (fun out out' => ∀ b, b ∈ out ↔ b ∈ out') (c.ground nt) (c'.ground nt) := by
        unfold ground
        rw [hlength]
        exact settle_agree h.bodies h.isScalar (fun b f => recursionFlaw?_broken) _ (h.isScalar nt)
          (h.bodies nt)
      rw [substituteAll_cons_result, substituteAll_cons_result]
      refine hground.bind fun bodies bodies' hok hok' hsame => ?_
      exact ih (h.replaced hsame (h.left.ground hnt hok) (h.right.ground (h.heads_eq ▸ hnt) hok')) hl'

/-- **The results are the same.** -/
theorem result_eq : c.result terminals = c'.result terminals := by
  have hkeep : ∀ s, c.keeps s = c'.keeps s := by
    intro s
    cases hr : c.ranked with
    | nil =>
        unfold keeps
        rw [← h.ranked, hr]
    | cons first rest =>
        have hmentions : c.rules.Mentions = c'.rules.Mentions := by
          funext a x
          unfold RuleTable.Mentions
          simp only [h.bodies]
        rw [Bool.eq_iff_iff, keeps_iff hr, keeps_iff (h.ranked ▸ hr), mem_reachable_iff,
          mem_reachable_iff, hmentions]
  have hcanonical : ∀ s, Body.canonical (c.rules.bodies s) = Body.canonical (c'.rules.bodies s) :=
    fun s => Body.canonical_congr (h.isScalar s) (h.bodies s)
  have hkeeps : c.keeps = c'.keeps := funext hkeep
  unfold result
  rw [h.heads_eq, hkeeps]
  simp only [hcanonical]

end Twins

end Conversion

/-! ## Grammars with the same conversion -/

open Conversion RuleTable

/-- The grammars have the same terminals and as many nonterminals, and the renaming of each nonterminal
    of the first to the one at its position in the second, all at once, turns the set of bodies at each
    position of the first into the set at that position of the second. -/
structure SameUpToNames (g g' : Grammar) : Prop where
  terminals : g.terminals = g'.terminals
  count : g.nonterminals.length = g'.nonterminals.length
  bodies : ∀ (i : Nat) (bs bs' : List Body), g.productions[i]? = some bs →
    g'.productions[i]? = some bs' → ∀ b' : Body, b' ∈ bs' ↔
      ∃ b ∈ bs, b.map (rename (g.nonterminals.zip g'.nonterminals)) = b'

namespace SameUpToNames

variable {g g' : Grammar} (h : SameUpToNames g g')
include h

/-- Renaming to the other grammar and then to ranks is renaming to ranks. -/
theorem rename_rename {s : Symbol} (hs : s ∈ g.terminals ∨ s ∈ g.nonterminals) :
    rename (newNames g'.toParts) (rename (g.nonterminals.zip g'.nonterminals) s) =
      rename (newNames g.toParts) s := by
  have hp := g.wellFormed
  have hp' := g'.wellFormed
  rcases hs with ht | hn
  · have hlow := hp.terminals_lower s ht
    have hnot : s ∉ g.nonterminals := fun hm => by
      rw [hp.nonterminal_not_lower hm] at hlow
      cases hlow
    rw [rename_zip_of_not_mem hnot, rename_terminal hp hlow, rename_terminal hp' hlow]
  · obtain ⟨i, hi⟩ := List.getElem?_of_mem hn
    have hlt : i < g'.nonterminals.length := h.count ▸ (List.getElem?_eq_some_iff.mp hi).1
    have hi' := List.getElem?_eq_getElem hlt
    rw [rename_zip hp.nonterminals_nodup (Nat.le_of_eq h.count) hi hi',
      rename_nonterminal hp'.nonterminals_nodup hi', rename_nonterminal hp.nonterminals_nodup hi, h.count]

/-- The renamed tables have the same sets of bodies. -/
theorem bodies_assign_iff (s : Symbol) (b : Body) :
    b ∈ (assign g.toParts).rules.bodies s ↔ b ∈ (assign g'.toParts).rules.bodies s := by
  have hp := g.wellFormed
  have hp' := g'.wellFormed
  by_cases hs : s ∈ lastLetters g.nonterminals.length
  · obtain ⟨i, hi, rfl⟩ := mem_lastLetters.mp hs
    have hnt := List.getElem?_eq_getElem hi
    have hnt' := List.getElem?_eq_getElem (h.count ▸ hi : i < g'.nonterminals.length)
    obtain ⟨bs, hbs⟩ := hp.exists_set hnt
    obtain ⟨bs', hbs'⟩ := hp'.exists_set hnt'
    have hleft := bodies_assign hp (List.mem_of_getElem? hnt)
    have hright := bodies_assign hp' (List.mem_of_getElem? hnt')
    rw [rename_nonterminal hp.nonterminals_nodup hnt, hp.bodies_eq hnt hbs] at hleft
    rw [rename_nonterminal hp'.nonterminals_nodup hnt', hp'.bodies_eq hnt' hbs', ← h.count] at hright
    rw [hleft, hright, List.mem_map, List.mem_map]
    have hrename : ∀ a ∈ bs,
        (a.map (rename (g.nonterminals.zip g'.nonterminals))).map (rename (newNames g'.toParts)) =
          a.map (rename (newNames g.toParts)) := by
      intro a ha
      rw [List.map_map]
      refine List.map_congr_left fun x hx => h.rename_rename ?_
      exact hp.declared bs (List.mem_of_getElem? hbs) a ha x hx
    constructor
    · rintro ⟨a, ha, rfl⟩
      exact ⟨_, (h.bodies i bs bs' hbs hbs' _).mpr ⟨a, ha, rfl⟩, hrename a ha⟩
    · rintro ⟨a', ha', rfl⟩
      obtain ⟨a, ha, rfl⟩ := (h.bodies i bs bs' hbs hbs' a').mp ha'
      exact ⟨a, ha, (hrename a ha).symm⟩
  · rw [bodies_eq_nil (by rw [heads_assign hp]; exact hs),
      bodies_eq_nil (by rw [heads_assign hp', ← h.count]; exact hs)]

/-- **The conversions start side by side.** -/
theorem twins_assign : Twins g.terminals (assign g.toParts) (assign g'.toParts) (assign g.toParts)
    (assign g'.toParts) where
  left := sound_assign g
  right := h.terminals ▸ sound_assign g'
  ranked := congrArg lastLetters h.count
  auxiliary := rfl
  allocator := by
    unfold assign
    rw [h.count]
  bodies := h.bodies_assign_iff

/-- **The conversions agree**, whatever the form of the grammars. -/
theorem convert_agree (on : Bool) : Agree Eq (convert on g).result (convert on g').result := by
  have hassemble : ∀ {c c'}, Twins g.terminals (assign g.toParts) (assign g'.toParts) c c' →
      Agree Eq (assemble on c g.terminals).result (assemble on c' g'.terminals).result := by
    intro c c' ht
    rw [assemble_result, assemble_result, ← h.terminals, ht.result_eq]
    exact .refl _
  have hempty : g.nonterminals.isEmpty = g'.nonterminals.isEmpty := by
    rw [Bool.eq_iff_iff, List.isEmpty_iff_length_eq_zero, List.isEmpty_iff_length_eq_zero, h.count]
  have ht := h.twins_assign
  rw [convert_result, convert_result, hempty]
  split
  · exact hassemble ht
  · have hr : (assign g.toParts).ranked = [] ++ (assign g.toParts).ranked := rfl
    rw [← ht.ranked]
    refine (ht.eliminateAll on hr).bind fun c₁ c₁' _ _ h₁ => ?_
    rw [← h₁.ranked, ← h₁.auxiliary]
    refine (h₁.substituteAll on fun s hm => ?_).bind fun c₂ c₂' _ _ h₂ => hassemble h₂
    exact mem_substituted_iff.mp hm

end SameUpToNames

/-- **A conversion depends on the set of bodies at each position only.** Two grammars in Chomsky form
    that are the same up to the names of nonterminals and the order and repetition of bodies convert,
    under any settings, to one and the same grammar, or fail with one kind of fault. -/
theorem toGreibach_depends_on_ranked_sets (c c' : Chomsky) (settings : List Setting)
    (h : SameUpToNames c.grammar c'.grammar) :
    (∃ r, (c.toGreibach settings).result = .ok r ∧ (c'.toGreibach settings).result = .ok r) ∨
    (∃ f f', (c.toGreibach settings).result = .error f ∧ (c'.toGreibach settings).result = .error f' ∧
      f.SameKind f') := by
  have hagree : Agree Eq (c.toGreibach settings).result (c'.toGreibach settings).result := by
    rw [Chomsky.toGreibach_result, Chomsky.toGreibach_result]
    refine (Agree.refl _).bind fun s s' _ _ hs => ?_
    rw [hs]
    exact h.convert_agree s'.traced
  cases hl : (c.toGreibach settings).result with
  | ok r =>
      rw [hl] at hagree
      cases hr : (c'.toGreibach settings).result with
      | ok r' =>
          rw [hr] at hagree
          cases hagree with
          | ok heq => exact Or.inl ⟨r, rfl, heq ▸ rfl⟩
      | error f => rw [hr] at hagree; cases hagree
  | error f =>
      rw [hl] at hagree
      cases hr : (c'.toGreibach settings).result with
      | ok r => rw [hr] at hagree; cases hagree
      | error f' =>
          rw [hr] at hagree
          cases hagree with
          | error hk => exact Or.inr ⟨f, f', rfl, rfl, hk⟩

/-- The pair with its letters exchanged, its bodies in another order and one of them twice. -/
def swappedParts : Parts where
  terminals := Body.ofText "ab"
  nonterminals := Body.ofText "AS"
  productions :=
    [[Body.ofText "a", Body.ofText "AS", Body.ofText "a"], [Body.ofText "b", Body.ofText "SA"]]

def swapped : Chomsky := ⟨⟨swappedParts, false, by decide⟩, by decide⟩

theorem toGreibach_swapped :
    ∃ r, (pair.toGreibach []).result = .ok r ∧ (swapped.toGreibach []).result = .ok r := by
  have hsame : SameUpToNames pair.grammar swapped.grammar := by
    have hsets : ∀ e ∈ pair.grammar.productions.zip swapped.grammar.productions,
        (∀ b ∈ e.2, b ∈ e.1.map fun b =>
          b.map (rename (pair.grammar.nonterminals.zip swapped.grammar.nonterminals))) ∧
        ∀ b ∈ e.1, b.map (rename (pair.grammar.nonterminals.zip swapped.grammar.nonterminals)) ∈ e.2 := by
      decide
    refine ⟨rfl, rfl, fun i bs bs' hi hi' b' => ?_⟩
    obtain ⟨hto, hfrom⟩ :=
      hsets (bs, bs') (List.mem_of_getElem? (List.getElem?_zip_eq_some.mpr ⟨hi, hi'⟩))
    refine ⟨fun hb => List.mem_map.mp (hto b' hb), ?_⟩
    rintro ⟨b, hb, rfl⟩
    exact hfrom b hb
  rcases toGreibach_depends_on_ranked_sets pair swapped [] hsame with hboth | ⟨f, _, hf, _⟩
  · exact hboth
  · rcases pair.convert_cases false with ⟨⟨r, hok⟩, _⟩ | ⟨_, hfull⟩
    · have hresult : (pair.toGreibach []).result = (convert false pair.grammar).result := by
        rewrite [Chomsky.toGreibach_result]
        rfl
      rw [hresult, hok] at hf
      cases hf
    · exact absurd hfull (by decide)

end LetterGrammar
