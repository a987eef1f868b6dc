import LetterGrammar.Proofs.Greibach.Run
import LetterGrammar.Proofs.Validation

/-!
# The invariant of a conversion

A state of the conversion is sound for a starting state when its table has a rule for every ranked and
fresh nonterminal and for no other, mentions no other nonterminal, keeps the letters still to be handed
out apart from those in use, and derives from the ranked nonterminals what the starting table derives.
Every step keeps a sound state sound, on any grammar; so does a whole phase.

## Contents

- **`lettersBelow`**, **`Sound`**: the letters of fresh nonterminals, and the invariant.
- **`Sound.settle`**, **`Sound.detoured`**: the two kinds of step.
- **`Sound.raise`**, **`Sound.unwind`**, **`Sound.eliminateAt`**, **`Sound.ground`**: the steps of the
  phases.
- **`Sound.eliminateAll`**, **`Sound.substituteAll`**: the phases.
-/

namespace LetterGrammar
namespace Conversion

open RuleTable

/-! ## Base bodies and recursive tails -/

theorem mem_baseBodies {nt : Symbol} {bs : List Body} {b : Body} :
    b ∈ baseBodies nt bs ↔ b ∈ bs ∧ ∀ rest, b ≠ nt :: rest := by
  unfold baseBodies
  rw [List.mem_filter]
  cases b with
  | nil => simp [startsIn]
  | cons x rest => simp [startsIn]

theorem mem_recursiveTails {nt : Symbol} {bs : List Body} {a : Body} :
    a ∈ recursiveTails nt bs ↔ a ≠ [] ∧ nt :: a ∈ bs := by
  unfold recursiveTails
  rw [List.mem_filterMap]
  constructor
  · rintro ⟨b, hb, h⟩
    split at h
    · rename_i x y rest
      by_cases hx : (x == nt) = true
      · rw [if_pos hx] at h
        injection h with h
        rw [← h, ← beq_iff_eq.mp hx]
        exact ⟨List.cons_ne_nil _ _, hb⟩
      · rw [if_neg hx] at h
        cases h
    · cases h
  · rintro ⟨hne, hb⟩
    cases a with
    | nil => exact absurd rfl hne
    | cons y rest => exact ⟨nt :: y :: rest, hb, by simp⟩

/-- A body is a base body, a recursive one, or the nonterminal alone. -/
theorem base_or_recursive {nt : Symbol} {bs : List Body} {b : Body} (hb : b ∈ bs) :
    b ∈ baseBodies nt bs ∨ (∃ a ∈ recursiveTails nt bs, b = nt :: a) ∨ b = [nt] := by
  by_cases h : ∃ rest, b = nt :: rest
  · obtain ⟨rest, rfl⟩ := h
    by_cases hr : rest = []
    · exact Or.inr (Or.inr (by rw [hr]))
    · exact Or.inr (Or.inl ⟨rest, mem_recursiveTails.mpr ⟨hr, hb⟩, rfl⟩)
  · exact Or.inl (mem_baseBodies.mpr ⟨hb, fun rest hr => h ⟨rest, hr⟩⟩)

/-! ## The invariant -/

theorem mem_heads_of_mem_ranked {c : Conversion} {s : Symbol} (h : s ∈ c.ranked) : s ∈ c.heads :=
  List.mem_append_left _ h

/-- The substitution goes through all nonterminals. -/
theorem mem_substituted_iff {c : Conversion} {s : Symbol} :
    s ∈ c.ranked.reverse ++ c.auxiliary.reverse ↔ s ∈ c.heads := by
  unfold heads
  rw [List.mem_append, List.mem_append, List.mem_reverse, List.mem_reverse]

theorem heads_detoured (c : Conversion) (nt aux : Symbol) (allocator : Allocator) :
    (c.detoured nt aux allocator).heads = c.heads ++ [aux] :=
  (List.append_assoc ..).symm

/-- The first `k` letters below the last `n`, downwards. -/
def lettersBelow (n k : Nat) : List Symbol :=
  (List.range k).map fun (j : Nat) => ⟨90 - n - j⟩

theorem lettersBelow_succ (n k : Nat) :
    lettersBelow n (k + 1) = lettersBelow n k ++ [⟨90 - n - k⟩] := by
  simp [lettersBelow, List.range_succ]

/-- The invariant of a conversion that started at `c₀`, over the given terminals. -/
structure Sound (terminals : List Symbol) (c₀ c : Conversion) : Prop where
  terminals_lower : ∀ s ∈ terminals, s.isLower = true
  ranked_eq : c.ranked = c₀.ranked
  table_heads : c.rules.heads = c.heads
  heads_nodup : c.heads.Nodup
  heads_upper : ∀ s ∈ c.heads, s.isUpper = true
  spelled : ∀ s, ∀ b ∈ c.rules.bodies s, ∀ x ∈ b, x ∈ terminals ∨ x ∈ c.heads
  next_eq : c.allocator.next.code = 90 - c.heads.length
  heads_above : ∀ s ∈ c.heads, c.allocator.next.code < s.code
  used_above : ∀ s ∈ c.allocator.used, c.allocator.next.code < s.code
  /-- The fresh nonterminals go down from the letters of the ranks. -/
  auxiliary_eq : c.auxiliary = lettersBelow c.ranked.length c.auxiliary.length
  /-- The ranked nonterminals derive what they derived at the start. -/
  words : ∀ s ∈ c.ranked, ∀ w, Derives c₀.rules [s] w ↔ Derives c.rules [s] w
  /-- Every nonterminal derives a word. -/
  productive : ∀ s ∈ c.heads, ∃ w, Derives c.rules [s] w

namespace Sound

variable {terminals : List Symbol} {c₀ c c' : Conversion} {nt : Symbol}
variable (hs : Sound terminals c₀ c)
include hs

theorem not_lower_of_mem_heads {s : Symbol} (h : s ∈ c.heads) : s.isLower = false :=
  Symbol.isLower_eq_false_of_isUpper (hs.heads_upper s h)

/-- The symbols of a sound state are letters. -/
theorem isScalar {b : Body} (hb : ∀ x ∈ b, x ∈ terminals ∨ x ∈ c.heads) : b.IsScalar := by
  intro x hx
  rcases hb x hx with ht | hh
  · exact Symbol.isScalar_of_isLower (hs.terminals_lower x ht)
  · exact Symbol.isScalar_of_isUpper (hs.heads_upper x hh)

theorem ranked_nodup : c.ranked.Nodup :=
  (List.nodup_append.mp hs.heads_nodup).1

theorem not_mem_lower {pre rest : List Symbol} (hr : c.ranked = pre ++ nt :: rest) : nt ∉ pre := by
  have hnd := hs.ranked_nodup
  rw [hr] at hnd
  exact fun hm => (List.nodup_append.mp hnd).2.2 nt hm nt List.mem_cons_self rfl

/-- A fresh nonterminal is not ranked. -/
theorem ne_of_mem_auxiliary {s : Symbol} (hnt : nt ∈ c.ranked) (hm : s ∈ c.auxiliary) : s ≠ nt :=
  fun he => (List.nodup_append.mp hs.heads_nodup).2.2 nt hnt s hm he.symm

/-- The substitution goes through every nonterminal once. -/
theorem substituted_nodup : (c.ranked.reverse ++ c.auxiliary.reverse).Nodup := by
  have hperm : (c.ranked.reverse ++ c.auxiliary.reverse).Perm c.heads :=
    (List.reverse_perm _).append (List.reverse_perm _)
  exact hperm.nodup_iff.mpr hs.heads_nodup

theorem length_rules : c.rules.length = c.heads.length := by
  rw [← hs.table_heads, RuleTable.heads, List.length_map]

/-- A change of the bodies of one nonterminal that keeps all words keeps the state sound. -/
theorem replaced (hnt : nt ∈ c.heads) {bodies : List Body}
    (hspelled : ∀ b ∈ bodies, ∀ x ∈ b, x ∈ terminals ∨ x ∈ c.heads)
    (hwords : ∀ b w, Derives c.rules b w ↔ Derives (c.rules.set nt bodies) b w) :
    Sound terminals c₀ (c.replaced nt bodies) where
  terminals_lower := hs.terminals_lower
  ranked_eq := hs.ranked_eq
  table_heads := by
    show (c.rules.set nt bodies).heads = c.heads
    rw [heads_set_of_mem (by rw [hs.table_heads]; exact hnt), hs.table_heads]
  heads_nodup := hs.heads_nodup
  heads_upper := hs.heads_upper
  spelled := by
    intro s b hb
    by_cases hsn : s = nt
    · subst hsn
      rw [show (c.replaced s bodies).rules.bodies s = bodies from bodies_set_self ..] at hb
      exact hspelled b hb
    · rw [show (c.replaced nt bodies).rules.bodies s = c.rules.bodies s from bodies_set_ne hsn ..] at hb
      exact hs.spelled s b hb
  next_eq := hs.next_eq
  heads_above := hs.heads_above
  used_above := hs.used_above
  auxiliary_eq := hs.auxiliary_eq
  words := fun s h w => (hs.words s h w).trans (hwords [s] w)
  productive := by
    intro s h
    obtain ⟨w, hw⟩ := hs.productive s h
    exact ⟨w, (hwords [s] w).mp hw⟩

/-- **Rounds of replacement keep a state sound**, provided a body that starts with its own nonterminal
    is either not expanded or taken for a flaw. -/
theorem settle {lead : Symbol → Bool} {flaw? : Body → Option Fault} {stuck : Fault} {rounds : Nat}
    {bodies : List Body} (hnt : nt ∈ c.heads) (hlead : ∀ s, lead s = true → s.isLower = false)
    (hself : lead nt = true → ∀ rest, flaw? (nt :: rest) ≠ none)
    (h : settle lead flaw? stuck c.rules rounds (c.rules.bodies nt) = .ok bodies) :
    Sound terminals c₀ (c.replaced nt bodies) := by
  -- what each round keeps: the spelling of the bodies, and all words of the table that holds them
  have hround : ∀ bs, ((∀ b ∈ bs, ∀ x ∈ b, x ∈ terminals ∨ x ∈ c.heads) ∧
        ∀ b w, Derives c.rules b w ↔ Derives (c.rules.set nt bs) b w) →
      (∀ b ∈ bs, flaw? b = none) →
      ((∀ b ∈ Body.distinct (bs.flatMap (expandLeading lead c.rules)),
          ∀ x ∈ b, x ∈ terminals ∨ x ∈ c.heads) ∧
        ∀ b w, Derives c.rules b w ↔
          Derives (c.rules.set nt (Body.distinct (bs.flatMap (expandLeading lead c.rules)))) b w) := by
    rintro bs ⟨hspelled, hwords⟩ hflaw
    have hnext : ∀ b ∈ bs.flatMap (expandLeading lead c.rules),
        ∀ x ∈ b, x ∈ terminals ∨ x ∈ c.heads := by
      intro b' hb' x hx
      obtain ⟨b, hb, hexp⟩ := List.mem_flatMap.mp hb'
      rcases mem_expandLeading.mp hexp with ⟨_, rfl⟩ | ⟨y, rest, q, rfl, _, hq, rfl⟩
      · exact hspelled _ hb x hx
      · rcases List.mem_append.mp hx with hx | hx
        · exact hs.spelled y q hq x hx
        · exact hspelled _ hb x (List.mem_cons_of_mem _ hx)
    refine ⟨fun b hb => hnext b (Body.mem_of_mem_distinct hb), fun b w => ?_⟩
    have hne : ∀ y rest, y :: rest ∈ bs → lead y = true → y ≠ nt := by
      intro y rest hb hy hyn
      subst hyn
      exact hself hy rest (hflaw _ hb)
    rw [hwords b w, derives_set_expand (hs.not_lower_of_mem_heads hnt) hlead hne]
    refine derives_congr fun s b => ?_
    rw [bodies_set, bodies_set]
    by_cases hsn : s = nt
    · rw [if_pos hsn, if_pos hsn]
      exact Body.mem_distinct fun b hb => hs.isScalar (hnext b hb)
    · rw [if_neg hsn, if_neg hsn]
  have hstart : ∀ b w, Derives c.rules b w ↔
      Derives (c.rules.set nt (c.rules.bodies nt)) b w := by
    refine fun b w => derives_congr fun s b => ?_
    rw [bodies_set]
    by_cases hsn : s = nt
    · rw [if_pos hsn, hsn]
    · rw [if_neg hsn]
  obtain ⟨⟨hspelled, hwords⟩, _⟩ := settle_ok_keeps hround ⟨hs.spelled nt, hstart⟩ h
  exact hs.replaced hnt hspelled hwords

/-! ## The detour through a fresh nonterminal -/

/-- A letter handed out in a sound state is the next one, and new. -/
theorem allocated {aux : Symbol} {allocator : Allocator}
    (h : c.allocator.allocate = (.ok aux, allocator)) :
    aux = c.allocator.next ∧ aux.isUpper = true ∧ aux ∉ c.heads ∧
      allocator = ⟨⟨aux.code - 1⟩, aux :: c.allocator.used⟩ := by
  by_cases hroom : 64 < c.allocator.next.code
  · have hfree : c.allocator.next ∉ c.allocator.used := fun hu =>
      absurd (hs.used_above _ hu) (Int.lt_irrefl _)
    rw [Allocator.allocate_of_room hroom hfree] at h
    injection h with hok halloc
    injection hok with haux
    subst haux halloc
    have := hs.next_eq
    exact ⟨rfl, Symbol.isUpper_iff.mpr (by omega),
      fun hh => absurd (hs.heads_above _ hh) (Int.lt_irrefl _), rfl⟩
  · obtain ⟨text, after, hfail⟩ := Allocator.allocate_of_full (Int.not_lt.mp hroom)
    rw [hfail] at h
    injection h with h _
    cases h

/-- The detour trades left recursion for right recursion. -/
theorem unwound {aux : Symbol} {allocator : Allocator} (hnt : nt ∈ c.heads)
    (h : c.allocator.allocate = (.ok aux, allocator)) :
    Unwound c.rules (c.detoured nt aux allocator).rules nt aux
      (baseBodies nt (c.rules.bodies nt)) (recursiveTails nt (c.rules.bodies nt)) := by
  obtain ⟨_, hupper, hnew, _⟩ := hs.allocated h
  have hne : aux ≠ nt := fun he => hnew (he ▸ hnt)
  have hlow := Symbol.isLower_eq_false_of_isUpper hupper
  have hbase : ∀ b ∈ baseBodies nt (c.rules.bodies nt), b.IsScalar := fun b hb =>
    hs.isScalar (hs.spelled nt b (mem_baseBodies.mp hb).1)
  have htails : ∀ a ∈ recursiveTails nt (c.rules.bodies nt), a.IsScalar := fun a ha =>
    hs.isScalar fun x hx => hs.spelled nt _ (mem_recursiveTails.mp ha).2 x (List.mem_cons_of_mem _ hx)
  have haux_scalar := Symbol.isScalar_of_isUpper hupper
  exact {
    head_nonterminal := hs.not_lower_of_mem_heads hnt
    aux_nonterminal := hlow
    aux_ne := hne
    aux_no_head := bodies_eq_nil (by rw [hs.table_heads]; exact hnew)
    aux_unused := by
      intro s b hb hx
      rcases hs.spelled s b hb aux hx with ht | hh
      · rw [hs.terminals_lower aux ht] at hlow
        exact Bool.noConfusion hlow
      · exact hnew hh
    split := fun b hb => base_or_recursive hb
    base_sub := fun b hb => (mem_baseBodies.mp hb).1
    tails_sub := fun a ha => (mem_recursiveTails.mp ha).2
    head_bodies := by
      intro b
      unfold detoured
      rw [bodies_set_ne hne.symm, bodies_set_self, Body.mem_withSuffix hbase haux_scalar]
    aux_bodies := by
      intro b
      unfold detoured
      rw [bodies_set_self, Body.mem_withSuffix htails haux_scalar]
    other_bodies := by
      intro s hsn hsa
      unfold detoured
      rw [bodies_set_ne hsa, bodies_set_ne hsn] }

/-- The detour keeps the words of the old nonterminals. -/
theorem derives_detoured {aux : Symbol} {allocator : Allocator} (hnt : nt ∈ c.heads)
    (h : c.allocator.allocate = (.ok aux, allocator)) {s : Symbol} (hsh : s ∈ c.heads) (w : Word) :
    Derives c.rules [s] w ↔ Derives (c.detoured nt aux allocator).rules [s] w := by
  obtain ⟨_, _, hnew, _⟩ := hs.allocated h
  exact (hs.unwound hnt h).derives_iff fun hm => hnew (List.mem_singleton.mp hm ▸ hsh)

/-- The detour brings in no symbol but the fresh one. -/
theorem spelled_detoured {aux : Symbol} {allocator : Allocator} (hnt : nt ∈ c.heads)
    (h : c.allocator.allocate = (.ok aux, allocator)) (s : Symbol) :
    ∀ b ∈ (c.detoured nt aux allocator).rules.bodies s,
      ∀ x ∈ b, x ∈ terminals ∨ x ∈ c.heads ++ [aux] := by
  have U := hs.unwound hnt h
  have hspelled : ∀ s, ∀ b ∈ c.rules.bodies s, ∀ x ∈ b, x ∈ terminals ∨ x ∈ c.heads ++ [aux] :=
    fun s b hb x hx => (hs.spelled s b hb x hx).imp id (List.mem_append_left _)
  intro b hb x hx
  by_cases hsa : s = aux
  · subst hsa
    rcases (U.aux_bodies b).mp hb with hb | ⟨a, ha, rfl⟩
    · exact hspelled nt _ (U.tails_sub b hb) x (List.mem_cons_of_mem _ hx)
    · rcases List.mem_append.mp hx with hx | hx
      · exact hspelled nt _ (U.tails_sub a ha) x (List.mem_cons_of_mem _ hx)
      · exact Or.inr (List.mem_append_right _ hx)
  · by_cases hsn : s = nt
    · subst hsn
      rcases (U.head_bodies b).mp hb with hb | ⟨a, ha, rfl⟩
      · exact hspelled s _ (U.base_sub b hb) x hx
      · rcases List.mem_append.mp hx with hx | hx
        · exact hspelled s _ (U.base_sub a ha) x hx
        · exact Or.inr (List.mem_append_right _ hx)
    · rw [U.other_bodies s hsn hsa] at hb
      exact hspelled s b hb x hx

/-- After the detour all nonterminals derive words, the fresh one because every symbol of a recursive
    tail does. -/
theorem productive_detoured {aux : Symbol} {allocator : Allocator} (hnt : nt ∈ c.heads)
    (hrec : recursiveTails nt (c.rules.bodies nt) ≠ [])
    (h : c.allocator.allocate = (.ok aux, allocator)) :
    ∀ s ∈ c.heads ++ [aux], ∃ w, Derives (c.detoured nt aux allocator).rules [s] w := by
  have U := hs.unwound hnt h
  have hold : ∀ s ∈ c.heads, ∃ w, Derives (c.detoured nt aux allocator).rules [s] w := by
    intro s hsh
    obtain ⟨w, hw⟩ := hs.productive s hsh
    exact ⟨w, (hs.derives_detoured hnt h hsh w).mp hw⟩
  refine List.forall_mem_append.mpr ⟨hold, List.forall_mem_singleton.mpr ?_⟩
  -- the fresh nonterminal takes the word of any one tail
  obtain ⟨a, ha⟩ := List.exists_mem_of_ne_nil _ hrec
  have hsym : ∀ x ∈ a, x.isLower = true ∨
      ∃ w, Derives (c.detoured nt aux allocator).rules [x] w := by
    intro x hx
    rcases hs.spelled nt _ (U.tails_sub a ha) x (List.mem_cons_of_mem _ hx) with ht | hh
    · exact Or.inl (hs.terminals_lower x ht)
    · exact Or.inr (hold x hh)
  obtain ⟨w, hw⟩ := exists_derives hsym
  exact ⟨w, Derives.rule U.aux_nonterminal ((U.aux_bodies a).mpr (Or.inl ha)) hw⟩

/-- The detour takes the next letter down. -/
theorem auxiliary_detoured {aux : Symbol} {allocator : Allocator}
    (h : c.allocator.allocate = (.ok aux, allocator)) :
    c.auxiliary ++ [aux] = lettersBelow c.ranked.length (c.auxiliary ++ [aux]).length := by
  have hlen : c.heads.length = c.ranked.length + c.auxiliary.length := List.length_append
  have hnext := hs.next_eq
  rw [← (hs.allocated h).1] at hnext
  have haux : aux = ⟨90 - c.ranked.length - c.auxiliary.length⟩ := by
    obtain ⟨code⟩ := aux
    simp only [Symbol.mk.injEq]
    simp only at hnext
    omega
  rw [List.length_append, List.length_singleton, lettersBelow_succ, ← hs.auxiliary_eq, ← haux]

/-- **The detour keeps a state sound.** -/
theorem detoured {aux : Symbol} {allocator : Allocator} (hnt : nt ∈ c.heads)
    (hrec : recursiveTails nt (c.rules.bodies nt) ≠ [])
    (h : c.allocator.allocate = (.ok aux, allocator)) :
    Sound terminals c₀ (c.detoured nt aux allocator) := by
  obtain ⟨haux, hupper, hnew, rfl⟩ := hs.allocated h
  have hnext := hs.next_eq
  rw [← haux] at hnext
  exact {
    terminals_lower := hs.terminals_lower
    ranked_eq := hs.ranked_eq
    table_heads := by
      have hset : (c.rules.set nt (Body.withSuffix (baseBodies nt (c.rules.bodies nt)) aux)).heads
          = c.heads := by
        rw [heads_set_of_mem (by rw [hs.table_heads]; exact hnt), hs.table_heads]
      rw [heads_detoured]
      unfold Conversion.detoured
      rw [heads_set_of_not_mem (by rw [hset]; exact hnew), hset]
    heads_nodup := by
      rw [heads_detoured, List.nodup_append]
      refine ⟨hs.heads_nodup, List.pairwise_singleton _ _, fun a ha b hb hab => ?_⟩
      exact hnew (List.mem_singleton.mp hb ▸ hab ▸ ha)
    heads_upper := by
      rw [heads_detoured]
      exact List.forall_mem_append.mpr ⟨hs.heads_upper, List.forall_mem_singleton.mpr hupper⟩
    spelled := by
      rw [heads_detoured]
      exact hs.spelled_detoured hnt h
    next_eq := by
      rw [heads_detoured, List.length_append, List.length_singleton]
      show aux.code - 1 = _
      omega
    heads_above := by
      rw [heads_detoured]
      show ∀ s : Symbol, s ∈ c.heads ++ [aux] → aux.code - 1 < s.code
      refine List.forall_mem_append.mpr ⟨fun s hsh => ?_, List.forall_mem_singleton.mpr (by omega)⟩
      have := hs.heads_above s hsh
      rw [← haux] at this
      omega
    used_above := by
      show ∀ s : Symbol, s ∈ aux :: c.allocator.used → aux.code - 1 < s.code
      refine List.forall_mem_cons.mpr ⟨by omega, fun s hsu => ?_⟩
      have := hs.used_above s hsu
      rw [← haux] at this
      omega
    auxiliary_eq := hs.auxiliary_detoured h
    words := fun s hsr w =>
      (hs.words s hsr w).trans (hs.derives_detoured hnt h (mem_heads_of_mem_ranked hsr) w)
    productive := by
      rw [heads_detoured]
      exact hs.productive_detoured hnt hrec h }

/-! ## The steps of the phases -/

/-- Replacing leading lower ranks keeps a state sound. -/
theorem raise {pre rest : List Symbol} {bodies : List Body} (hr : c.ranked = pre ++ nt :: rest)
    (h : c.raise pre.length nt = .ok bodies) : Sound terminals c₀ (c.replaced nt bodies) := by
  have hranked : ∀ s ∈ pre ++ nt :: rest, s ∈ c.heads := fun s hm =>
    mem_heads_of_mem_ranked (hr ▸ hm)
  have htake : c.ranked.take pre.length = pre := by rw [hr, List.take_left]
  unfold Conversion.raise at h
  rw [htake] at h
  refine hs.settle (hranked nt (by simp)) (fun s hl => ?_) (fun hl => ?_) h
  · have hm : s ∈ pre := List.contains_iff_mem.mp hl
    exact hs.not_lower_of_mem_heads (hranked s (List.mem_append_left _ hm))
  · exact absurd (List.contains_iff_mem.mp hl) (hs.not_mem_lower hr)

/-- Replacing left recursion keeps a state sound. -/
theorem unwind {on : Bool} (hnt : nt ∈ c.heads) (h : (unwind on c nt).result = .ok c') :
    Sound terminals c₀ c' := by
  rcases unwind_ok_cases h with ⟨_, rfl⟩ | ⟨hrec, aux, allocator, halloc, rfl⟩
  · exact hs
  · exact hs.detoured hnt hrec halloc

/-- Both parts of the elimination for one rank keep a state sound. -/
theorem eliminateAt {on : Bool} {pre rest : List Symbol} (hr : c.ranked = pre ++ nt :: rest)
    (h : (eliminateAt on c pre.length nt).result = .ok c') : Sound terminals c₀ c' := by
  rw [eliminateAt_result, bind_eq_ok_iff] at h
  obtain ⟨bodies, hraise, hunwind⟩ := h
  have hnt : nt ∈ c.heads := mem_heads_of_mem_ranked (hr ▸ by simp)
  exact (hs.raise hr hraise).unwind hnt hunwind

/-- Replacing leading nonterminals keeps a state sound. -/
theorem ground {bodies : List Body} (hnt : nt ∈ c.heads) (h : c.ground nt = .ok bodies) :
    Sound terminals c₀ (c.replaced nt bodies) := by
  unfold Conversion.ground at h
  refine hs.settle hnt (fun s hu => Symbol.isLower_eq_false_of_isUpper hu) (fun _ rest hflaw => ?_) h
  simp [recursionFlaw?] at hflaw

/-! ## The phases -/

/-- **The elimination keeps a state sound.** -/
theorem eliminateAll {on : Bool} {pre rest : List Symbol} (hr : c.ranked = pre ++ rest)
    (h : (eliminateAll on c (rest.zipIdx pre.length)).result = .ok c') : Sound terminals c₀ c' := by
  induction rest generalizing pre c with
  | nil =>
      injection h with h
      exact h ▸ hs
  | cons nt rest ih =>
      rw [List.zipIdx_cons, eliminateAll_cons_result, bind_eq_ok_iff] at h
      obtain ⟨c₁, hat, hrest⟩ := h
      have hs₁ : Sound terminals c₀ c₁ := hs.eliminateAt hr hat
      have hr₁ : c₁.ranked = (pre ++ [nt]) ++ rest := by
        rw [hs₁.ranked_eq, ← hs.ranked_eq, hr, List.append_cons]
      refine ih hs₁ hr₁ ?_
      rwa [List.length_append, List.length_singleton]

/-- **The substitution keeps a state sound.** -/
theorem substituteAll {on : Bool} {l : List Symbol} (hl : ∀ s ∈ l, s ∈ c.heads)
    (h : (substituteAll on c l).result = .ok c') : Sound terminals c₀ c' := by
  induction l generalizing c with
  | nil =>
      injection h with h
      exact h ▸ hs
  | cons nt l ih =>
      obtain ⟨hnt, hl'⟩ := List.forall_mem_cons.mp hl
      rw [substituteAll_cons_result, bind_eq_ok_iff] at h
      obtain ⟨bodies, hground, hrest⟩ := h
      exact ih (hs.ground hnt hground) hl' hrest

end Sound

end Conversion
end LetterGrammar
