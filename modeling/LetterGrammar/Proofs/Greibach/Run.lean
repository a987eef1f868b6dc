import LetterGrammar.Greibach.Conversion
import LetterGrammar.Proofs.Greibach.Allocator
import LetterGrammar.Proofs.Rewriting

/-!
# What a run of the conversion does

Each step of the conversion as an equation on its result, without the trace; and what rounds of
replacement give, in the two forms that later proofs use: what every successful run keeps, and when a
run must succeed.

## Contents

- **`result_bind`**, **`bind_eq_ok_iff`**: the result of one computation after another.
- **`Conversion.replaced`**, **`Conversion.detoured`**: the two ways a step changes the state.
- **`unwind_result`**, **`eliminateAt_result`**, **`convert_result`**: the steps as equations.
- **`settle_ok_keeps`**, **`settle_ok_of_countdown`**: partial and total rules for rounds of replacement.
-/

namespace LetterGrammar

/-! ## Results of traced computations -/

/-- One computation after another succeeds when both do. -/
theorem bind_eq_ok_iff {α β : Type} {x : Except Fault α} {f : α → Except Fault β} {b : β} :
    (x >>= f) = .ok b ↔ ∃ a, x = .ok a ∧ f a = .ok b := by
  cases x with
  | error e => exact ⟨fun h => (by cases h), fun ⟨_, h, _⟩ => (by cases h)⟩
  | ok a => exact ⟨fun h => ⟨a, rfl, h⟩, fun ⟨_, ha, h⟩ => by cases ha; exact h⟩

namespace Traced

variable {α β : Type}

theorem result_bind (x : Traced α) (f : α → Traced β) :
    (x >>= f).result = x.result >>= fun a => (f a).result := by
  show (andThen x f).result = _
  unfold andThen
  cases x.result with
  | error e => rfl
  | ok a => rfl

/-- A report leaves the result of what follows. -/
theorem result_report_bind (on : Bool) (e : Event) (f : Unit → Traced β) :
    (report on e >>= f).result = (f ()).result := rfl

end Traced

namespace Conversion

open Traced

/-! ## The steps -/

/-- The state with the bodies of a nonterminal replaced. -/
def replaced (c : Conversion) (nt : Symbol) (bodies : List Body) : Conversion :=
  { c with rules := c.rules.set nt bodies }

/-- The state with the left recursion of a nonterminal moved to a fresh one. -/
def detoured (c : Conversion) (nt aux : Symbol) (allocator : Allocator) : Conversion where
  ranked := c.ranked
  auxiliary := c.auxiliary ++ [aux]
  rules := (c.rules.set nt (Body.withSuffix (baseBodies nt (c.rules.bodies nt)) aux)).set aux
    (Body.withSuffix (recursiveTails nt (c.rules.bodies nt)) aux)
  allocator := allocator

/-- Without recursion nothing happens; else a base body and a free letter are needed. -/
theorem unwind_result (on : Bool) (c : Conversion) (nt : Symbol) :
    (unwind on c nt).result =
      if (recursiveTails nt (c.rules.bodies nt)).isEmpty then .ok c
      else if (baseBodies nt (c.rules.bodies nt)).isEmpty then
        .error (broken (nt.text ++ " is left recursive without a base production"))
      else
        match c.allocator.allocate with
        | (.error f, _) => .error f
        | (.ok aux, allocator) => .ok (c.detoured nt aux allocator) := by
  unfold unwind
  dsimp only
  by_cases hrec : (recursiveTails nt (c.rules.bodies nt)).isEmpty = true
  · rw [if_pos hrec, if_pos hrec]
    rfl
  · rw [if_neg hrec, if_neg hrec]
    by_cases hbase : (baseBodies nt (c.rules.bodies nt)).isEmpty = true
    · rw [if_pos hbase, if_pos hbase]
      rfl
    · rw [if_neg hbase, if_neg hbase]
      match c.allocator.allocate with
      | (.error f, _) => rfl
      | (.ok aux, allocator) => rfl

/-- A successful unwinding either found no recursion or made a detour. -/
theorem unwind_ok_cases {on : Bool} {c c' : Conversion} {nt : Symbol}
    (h : (unwind on c nt).result = .ok c') :
    (recursiveTails nt (c.rules.bodies nt) = [] ∧ c' = c) ∨
    (recursiveTails nt (c.rules.bodies nt) ≠ [] ∧ ∃ aux allocator,
      c.allocator.allocate = (.ok aux, allocator) ∧ c' = c.detoured nt aux allocator) := by
  rw [unwind_result] at h
  split at h
  · rename_i hrec
    injection h with h
    exact Or.inl ⟨List.isEmpty_iff.mp hrec, h.symm⟩
  · rename_i hrec
    split at h
    · cases h
    · split at h
      · cases h
      · rename_i aux allocator halloc
        injection h with h
        exact Or.inr ⟨fun he => hrec (List.isEmpty_iff.mpr he), aux, allocator, halloc, h.symm⟩

theorem eliminateAt_result (on : Bool) (c : Conversion) (i : Nat) (nt : Symbol) :
    (eliminateAt on c i nt).result =
      c.raise i nt >>= fun bodies => (unwind on (c.replaced nt bodies) nt).result := by
  unfold eliminateAt
  rw [result_bind]
  rfl

theorem eliminateAll_cons_result (on : Bool) (c : Conversion) (nt : Symbol) (i : Nat)
    (rest : List (Symbol × Nat)) :
    (eliminateAll on c ((nt, i) :: rest)).result =
      (eliminateAt on c i nt).result >>= fun c' => (eliminateAll on c' rest).result := by
  rw [eliminateAll, result_bind]

theorem substituteAll_cons_result (on : Bool) (c : Conversion) (nt : Symbol) (rest : List Symbol) :
    (substituteAll on c (nt :: rest)).result =
      c.ground nt >>= fun bodies => (substituteAll on (c.replaced nt bodies) rest).result := by
  rw [substituteAll, result_bind]
  rfl

theorem reportAll_result (on : Bool) (events : List Event) : (reportAll on events).result = .ok () := by
  induction events with
  | nil => rfl
  | cons e events ih =>
      rw [reportAll, result_report_bind]
      exact ih

theorem assemble_result (on : Bool) (c : Conversion) (terminals : List Symbol) :
    (assemble on c terminals).result =
      ofResult (Grammar.build (c.result terminals)) >>= fun g => ofResult g.asGreibach := by
  unfold assemble
  rw [result_bind, reportAll_result]
  show (Traced.silently _ >>= _).result = _
  rw [result_bind]
  rfl

end Conversion

/-- The conversion of a grammar with nonterminals: elimination, substitution, assembly. -/
theorem convert_result (on : Bool) (g : Grammar) :
    (convert on g).result =
      if g.nonterminals.isEmpty then
        (Conversion.assemble on (Conversion.assign g.toParts) g.terminals).result
      else
        (Conversion.eliminateAll on (Conversion.assign g.toParts)
            (Conversion.assign g.toParts).ranked.zipIdx).result >>= fun c =>
          (Conversion.substituteAll on c (c.ranked.reverse ++ c.auxiliary.reverse)).result >>= fun c =>
            (Conversion.assemble on c g.terminals).result := by
  unfold convert
  dsimp only
  split
  · rfl
  · rw [Traced.result_report_bind, Traced.result_bind, Conversion.reportAll_result]
    show (_ >>= _ : Traced Greibach).result = _
    rw [Traced.result_bind]
    unfold Conversion.eliminate
    rw [Traced.result_report_bind]
    congr 1
    funext c
    rw [Traced.result_bind]
    unfold Conversion.substitute
    rw [Traced.result_report_bind]

/-- A conversion under settings is a conversion, once the settings are accepted. -/
theorem Chomsky.toGreibach_result (c : Chomsky) (settings : List Setting) :
    (c.toGreibach settings).result =
      settings.foldlM (fun s change => change s) (⟨false⟩ : Settings) >>= fun s =>
        (convert s.traced c.grammar).result := by
  unfold Chomsky.toGreibach convertWith
  rw [Traced.result_bind]
  rfl

/-! ## Rounds of replacement -/

section Settle

variable {lead : Symbol → Bool} {flaw? : Body → Option Fault} {stuck : Fault} {t : RuleTable}

theorem settle_succ (rounds : Nat) (bs : List Body) :
    settle lead flaw? stuck t (rounds + 1) bs =
      match bs.findSome? flaw? with
      | some f => .error f
      | none =>
        if bs.any (startsIn lead) then
          settle lead flaw? stuck t rounds (Body.distinct (bs.flatMap (expandLeading lead t)))
        else .ok (Body.distinct (bs.flatMap (expandLeading lead t))) := rfl

/-- Bodies that do not start in the class are left as they are. -/
theorem flatMap_expandLeading_of_none {bs : List Body} (h : bs.any (startsIn lead) = false) :
    bs.flatMap (expandLeading lead t) = bs := by
  induction bs with
  | nil => rfl
  | cons b bs ih =>
      rw [List.any_cons, Bool.or_eq_false_iff] at h
      have hb : expandLeading lead t b = [b] := by
        cases b with
        | nil => rfl
        | cons x rest =>
            have hx : lead x = false := h.1
            simp [expandLeading, hx]
      rw [List.flatMap_cons, hb, ih h.2]
      rfl

/-- Rounds of replacement keep to characters. -/
theorem isScalar_round {bs : List Body} (hbs : ∀ b ∈ bs, b.IsScalar)
    (ht : ∀ s, ∀ q ∈ t.bodies s, q.IsScalar) :
    ∀ b ∈ bs.flatMap (expandLeading lead t), b.IsScalar := by
  intro b' hb'
  obtain ⟨b, hb, hexp⟩ := List.mem_flatMap.mp hb'
  rcases RuleTable.mem_expandLeading.mp hexp with ⟨_, rfl⟩ | ⟨y, tail, q, rfl, _, hq, rfl⟩
  · exact hbs _ hb
  · exact List.forall_mem_append.mpr ⟨ht y q hq, (List.forall_mem_cons.mp (hbs _ hb)).2⟩

/-- The bodies after a round are the expansions of those before it. -/
theorem mem_round {bs : List Body} (hbs : ∀ b ∈ bs, b.IsScalar)
    (ht : ∀ s, ∀ q ∈ t.bodies s, q.IsScalar) {b : Body} :
    b ∈ Body.distinct (bs.flatMap (expandLeading lead t)) ↔ ∃ a ∈ bs, b ∈ expandLeading lead t a := by
  rw [Body.mem_distinct (isScalar_round hbs ht), List.mem_flatMap]

/-- **The partial rule.** What every round of flawless bodies keeps, a successful run keeps; and its
    bodies are flawless and do not start in the class. -/
theorem settle_ok_keeps {P : List Body → Prop}
    (hround : ∀ bs, P bs → (∀ b ∈ bs, flaw? b = none) →
      P (Body.distinct (bs.flatMap (expandLeading lead t))))
    {rounds : Nat} {bs out : List Body} (h₀ : P bs)
    (h : settle lead flaw? stuck t rounds bs = .ok out) :
    P out ∧ ∀ b ∈ out, flaw? b = none ∧ startsIn lead b = false := by
  induction rounds generalizing bs with
  | zero => cases h
  | succ rounds ih =>
      rw [settle_succ] at h
      cases hflaw : bs.findSome? flaw? with
      | some f => rw [hflaw] at h; cases h
      | none =>
          have hnone := List.findSome?_eq_none_iff.mp hflaw
          have hnext := hround bs h₀ hnone
          rw [hflaw] at h
          by_cases hany : bs.any (startsIn lead) = true
          · simp only [hany, if_true] at h
            exact ih hnext h
          · have hany' : bs.any (startsIn lead) = false := Bool.eq_false_iff.mpr hany
            simp only [hany', Bool.false_eq_true, if_false, Except.ok.injEq] at h
            subst h
            refine ⟨hnext, fun b hb => ?_⟩
            have hb' := Body.mem_of_mem_distinct hb
            rw [flatMap_expandLeading_of_none hany'] at hb'
            refine ⟨hnone b hb', Bool.eq_false_iff.mpr fun hs => hany ?_⟩
            exact List.any_eq_true.mpr ⟨b, hb', hs⟩

/-- **The total rule.** If bodies carry a number that each replacement lowers and that is zero only where
    nothing is to be replaced, more rounds than that number are enough. -/
theorem settle_ok_of_countdown {P : Nat → Body → Prop}
    (hflaw : ∀ k b, P k b → flaw? b = none)
    (hstop : ∀ b, P 0 b → startsIn lead b = false)
    (hstep : ∀ k b, P (k + 1) b → ∀ b' ∈ expandLeading lead t b, P k b')
    {k rounds : Nat} (hk : k < rounds) {bs : List Body} (h : ∀ b ∈ bs, P k b) :
    ∃ out, settle lead flaw? stuck t rounds bs = .ok out := by
  -- by induction on the number, with one round for each value it goes through and one to stop
  induction k generalizing rounds bs with
  | zero =>
      obtain ⟨rounds, rfl⟩ := Nat.exists_eq_succ_of_ne_zero (Nat.ne_of_gt hk)
      rw [settle_succ, List.findSome?_eq_none_iff.mpr fun b hb => hflaw 0 b (h b hb)]
      have hany : bs.any (startsIn lead) = false := by
        rw [List.any_eq_false]
        exact fun b hb => Bool.eq_false_iff.mp (hstop b (h b hb))
      rw [hany]
      exact ⟨_, rfl⟩
  | succ k ih =>
      obtain ⟨rounds, rfl⟩ := Nat.exists_eq_succ_of_ne_zero (Nat.ne_of_gt (Nat.zero_lt_of_lt hk))
      rw [settle_succ, List.findSome?_eq_none_iff.mpr fun b hb => hflaw (k + 1) b (h b hb)]
      by_cases hany : bs.any (startsIn lead) = true
      · simp only [hany, if_true]
        refine ih (by omega) fun b' hb' => ?_
        obtain ⟨b, hb, hexp⟩ := List.mem_flatMap.mp (Body.mem_of_mem_distinct hb')
        exact hstep k b (h b hb) b' hexp
      · simp only [hany]
        exact ⟨_, rfl⟩

end Settle

end LetterGrammar
