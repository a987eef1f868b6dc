import LetterGrammar.Language.Enumeration
import LetterGrammar.Proofs.Height
import LetterGrammar.Proofs.Validation
import Mathlib.Logic.Function.Iterate

/-!
# The words that an enumeration finds

A round only adds derived words, and it adds all that the bodies spell from the words known before it.
So after `k` rounds the words within height `k` are known, and since the height of a derivation can be
bounded, the rounds come to an end with all short words and no others. Cutting off long beginnings loses
nothing: a beginning of a short word is short.

## Contents

- **`mem_spellings`**: the words a body spells.
- **`Collected`**: what is true of the table of words throughout.
- **`Collected.added`**, **`Collected.addAll`**, **`Collected.rounds`**: one rule, one round, all rounds.
- **`mem_wordsAfter`**, **`wordRound_wordsAfter`**: enough rounds find all short words, and a further
  one changes nothing.
-/

namespace LetterGrammar

open RuleTable

variable {known : WordTable} {maxLen : Nat}

/-! ## The words of a body -/

/-- The reading that gives each nonterminal the words known for it. -/
def Given (known : WordTable) (s : Symbol) (u : Word) : Prop := u ∈ known.bodies s

/-- A table of words that are made of characters. -/
def Spelled (known : WordTable) : Prop := ∀ s, ∀ w ∈ known.bodies s, Body.IsScalar w

/-- What a symbol can contribute to a word. -/
theorem mem_ends {s : Symbol} {e : Word} :
    e ∈ (if s.isLower then [[s]] else known.bodies s) ↔
      if s.isLower = true then e = [s] else Given known s e := by
  by_cases hs : s.isLower = true
  · simp [hs]
  · simp [hs, Given]

theorem isScalar_ends (hk : Spelled known) {s : Symbol} {e : Word}
    (h : if s.isLower = true then e = [s] else Given known s e) : Body.IsScalar e := by
  by_cases hs : s.isLower = true
  · rw [if_pos hs] at h
    rw [h]
    exact List.forall_mem_singleton.mpr (Symbol.isScalar_of_isLower hs)
  · rw [if_neg hs] at h
    exact hk s e h

theorem isScalar_of_reads (hk : Spelled known) {b : Body} {w : Word} (h : Reads (Given known) b w) :
    Body.IsScalar w := by
  induction b generalizing w with
  | nil =>
      rw [h]
      exact fun s hs => absurd hs List.not_mem_nil
  | cons s b ih =>
      obtain ⟨u, v, rfl, hu, hv⟩ := h
      exact List.forall_mem_append.mpr ⟨isScalar_ends hk hu, ih hv⟩

theorem mem_continuations (hk : Spelled known) {starts : List Word}
    (hstarts : ∀ u ∈ starts, Body.IsScalar u) {s : Symbol} {w : Word} :
    w ∈ continuations known maxLen starts s ↔
      w.length ≤ maxLen ∧ ∃ u ∈ starts, ∃ e, w = u ++ e ∧
        (if s.isLower = true then e = [s] else Given known s e) := by
  have hmem : ∀ w, w ∈ (starts.flatMap fun u =>
      (if s.isLower then [[s]] else known.bodies s).map (u ++ ·)).filter (fun w => w.length ≤ maxLen) ↔
      w.length ≤ maxLen ∧ ∃ u ∈ starts, ∃ e, w = u ++ e ∧
        (if s.isLower = true then e = [s] else Given known s e) := by
    intro w
    simp only [List.mem_filter, List.mem_flatMap, List.mem_map, mem_ends, decide_eq_true_eq]
    constructor
    · rintro ⟨⟨u, hu, e, he, rfl⟩, hlen⟩
      exact ⟨hlen, u, hu, e, rfl, he⟩
    · rintro ⟨hlen, u, hu, e, rfl, he⟩
      exact ⟨⟨u, hu, e, he, rfl⟩, hlen⟩
  unfold continuations
  rw [Body.mem_canonical, hmem]
  intro b hb
  obtain ⟨_, u, hu, e, rfl, he⟩ := (hmem b).mp hb
  exact List.forall_mem_append.mpr ⟨hstarts u hu, isScalar_ends hk he⟩

/-- Going on from words that are short enough, the rest of a body spells every short continuation. -/
theorem mem_foldl_continuations (hk : Spelled known) (b : Body) {starts : List Word}
    (hstarts : ∀ u ∈ starts, Body.IsScalar u) (hshort : ∀ u ∈ starts, u.length ≤ maxLen) {w : Word} :
    w ∈ b.foldl (continuations known maxLen) starts ↔
      w.length ≤ maxLen ∧ ∃ u ∈ starts, ∃ v, w = u ++ v ∧ Reads (Given known) b v := by
  induction b generalizing starts with
  | nil =>
      simp only [List.foldl_nil, Reads]
      constructor
      · exact fun hw => ⟨hshort w hw, w, hw, [], (List.append_nil w).symm, rfl⟩
      · rintro ⟨_, u, hu, v, rfl, rfl⟩
        rw [List.append_nil]
        exact hu
  | cons s b ih =>
      have hnext := @mem_continuations known maxLen hk starts hstarts s
      rw [List.foldl_cons, ih]
      · constructor
        · rintro ⟨hlen, x, hx, v, rfl, hv⟩
          obtain ⟨_, u, hu, e, rfl, he⟩ := hnext.mp hx
          exact ⟨hlen, u, hu, e ++ v, List.append_assoc .., e, v, rfl, he, hv⟩
        · rintro ⟨hlen, u, hu, _, rfl, e, v, rfl, he, hv⟩
          -- the beginning `u ++ e` of a short word is short, so it was not dropped
          have hstart : (u ++ e).length ≤ maxLen := by
            simp only [List.length_append] at hlen ⊢
            omega
          exact ⟨hlen, u ++ e, hnext.mpr ⟨hstart, u, hu, e, rfl, he⟩, v,
            (List.append_assoc ..).symm, hv⟩
      · intro x hx
        obtain ⟨_, u, hu, e, rfl, he⟩ := hnext.mp hx
        exact List.forall_mem_append.mpr ⟨hstarts u hu, isScalar_ends hk he⟩
      · exact fun x hx => (hnext.mp hx).1

/-- **A body spells the short words that it reads from the known ones.** -/
theorem mem_spellings (hk : Spelled known) {b : Body} {w : Word} :
    w ∈ spellings known maxLen b ↔ w.length ≤ maxLen ∧ Reads (Given known) b w := by
  unfold spellings
  rw [mem_foldl_continuations hk]
  · simp
  · intro u hu s hs
    rw [List.mem_singleton.mp hu] at hs
    exact absurd hs List.not_mem_nil
  · intro u hu
    rw [List.mem_singleton.mp hu]
    exact Nat.zero_le _

/-! ## The table of words -/

/-- What is true of the words throughout: they are derived, short enough and in canonical order. -/
structure Collected (t : RuleTable) (maxLen : Nat) (known : WordTable) : Prop where
  heads : known.heads = t.heads
  derived : ∀ s w, w ∈ known.bodies s → t.Derives [s] w
  short : ∀ s w, w ∈ known.bodies s → w.length ≤ maxLen
  canonical : ∀ s, Body.canonical (known.bodies s) = known.bodies s

namespace Collected

variable {t : RuleTable} {rule : Symbol × Body}

theorem spelled (hk : Collected t maxLen known) : Spelled known := by
  intro s w hw x hx
  exact Symbol.isScalar_of_isLower ((hk.derived s w hw).all_isLower x hx)

/-- The words of a body of a head are derived from the head. -/
theorem derives_of_reads (hk : Collected t maxLen known) (hrule : rule.2 ∈ t.bodies rule.1)
    (hlow : rule.1.isLower = false) {w : Word} (h : Reads (Given known) rule.2 w) :
    t.Derives [rule.1] w := by
  apply Derives.rule hlow hrule
  apply derives_iff_reads.mpr
  exact h.mono fun s _ _ u hu => hk.derived s u hu

theorem isScalar_added (hk : Collected t maxLen known) :
    ∀ w ∈ known.bodies rule.1 ++ spellings known maxLen rule.2, Body.IsScalar w := by
  intro w hw
  rcases List.mem_append.mp hw with hw | hw
  · exact hk.spelled _ w hw
  · exact isScalar_of_reads hk.spelled ((mem_spellings hk.spelled).mp hw).2

/-- The words after a rule was used: those known before and those its body spells. -/
theorem mem_addWords (hk : Collected t maxLen known) {s : Symbol} {w : Word} :
    w ∈ (addWords maxLen known rule).bodies s ↔
      w ∈ known.bodies s ∨ s = rule.1 ∧ w.length ≤ maxLen ∧ Reads (Given known) rule.2 w := by
  unfold addWords
  rw [bodies_set]
  by_cases hs : s = rule.1
  · subst hs
    rw [if_pos rfl, Body.mem_canonical hk.isScalar_added, List.mem_append, mem_spellings hk.spelled]
    simp
  · rw [if_neg hs]
    simp [hs]

/-- **One rule** keeps the table a collection of derived words. -/
theorem added (hk : Collected t maxLen known) (hrule : rule.2 ∈ t.bodies rule.1)
    (hlow : rule.1.isLower = false) : Collected t maxLen (addWords maxLen known rule) where
  heads := by
    rw [addWords, heads_set_of_mem, hk.heads]
    rw [hk.heads]
    exact mem_heads_of_mem_bodies hrule
  derived := by
    intro s w hw
    rcases hk.mem_addWords.mp hw with hw | ⟨rfl, _, hread⟩
    · exact hk.derived s w hw
    · exact hk.derives_of_reads hrule hlow hread
  short := by
    intro s w hw
    rcases hk.mem_addWords.mp hw with hw | ⟨_, hlen, _⟩
    · exact hk.short s w hw
    · exact hlen
  canonical := by
    intro s
    unfold addWords
    rw [bodies_set]
    split
    · exact Body.canonical_canonical hk.isScalar_added
    · exact hk.canonical s

/-- A rule that spells nothing new changes nothing. -/
theorem addWords_eq_self (hk : Collected t maxLen known) (hrule : rule.2 ∈ t.bodies rule.1)
    (hold : ∀ w, w.length ≤ maxLen → Reads (Given known) rule.2 w → w ∈ known.bodies rule.1) :
    addWords maxLen known rule = known := by
  have hsame : Body.canonical (known.bodies rule.1 ++ spellings known maxLen rule.2)
      = known.bodies rule.1 := by
    rw [← hk.canonical rule.1]
    apply Body.canonical_congr
    · rw [hk.canonical]
      exact hk.isScalar_added
    · intro w
      rw [hk.canonical, List.mem_append, mem_spellings hk.spelled]
      exact ⟨fun h => h.elim id fun hw => hold w hw.1 hw.2, Or.inl⟩
  unfold addWords
  rw [hsame]
  apply set_bodies_self
  rw [hk.heads]
  exact mem_heads_of_mem_bodies hrule

/-- **One round.** It keeps the table a collection of derived words, forgets no word, and adds what the
    rules spell from the words known before it. -/
theorem addAll (hk : Collected t maxLen known) {rules : List (Symbol × Body)}
    (hrules : ∀ r ∈ rules, r.2 ∈ t.bodies r.1 ∧ r.1.isLower = false) :
    Collected t maxLen (rules.foldl (addWords maxLen) known) ∧
    (∀ s w, w ∈ known.bodies s → w ∈ (rules.foldl (addWords maxLen) known).bodies s) ∧
    ∀ r ∈ rules, ∀ w, w.length ≤ maxLen → Reads (Given known) r.2 w →
      w ∈ (rules.foldl (addWords maxLen) known).bodies r.1 := by
  induction rules generalizing known with
  | nil => exact ⟨hk, fun _ _ hw => hw, fun r hr => absurd hr List.not_mem_nil⟩
  | cons r rules ih =>
      obtain ⟨hr, hrules⟩ := List.forall_mem_cons.mp hrules
      have hkeep : ∀ s w, w ∈ known.bodies s →
          w ∈ (addWords maxLen known r).bodies s :=
        fun s w hw => hk.mem_addWords.mpr (Or.inl hw)
      obtain ⟨hcoll, hmore, hadd⟩ := ih (hk.added hr.1 hr.2) hrules
      rw [List.foldl_cons]
      refine ⟨hcoll, fun s w hw => hmore s w (hkeep s w hw), ?_⟩
      intro r' hr' w hlen hread
      rcases List.mem_cons.mp hr' with rfl | hr'
      · exact hmore _ w (hk.mem_addWords.mpr (Or.inr ⟨rfl, hlen, hread⟩))
      · -- the rule comes later in the round, when only more words are known
        exact hadd r' hr' w hlen (hread.mono fun s _ _ u hu => hkeep s u hu)

/-- A round changes nothing once every rule spells known words only. -/
theorem addAll_eq_self (hk : Collected t maxLen known) {rules : List (Symbol × Body)}
    (hrules : ∀ r ∈ rules, r.2 ∈ t.bodies r.1)
    (hold : ∀ r ∈ rules, ∀ w, w.length ≤ maxLen → Reads (Given known) r.2 w → w ∈ known.bodies r.1) :
    rules.foldl (addWords maxLen) known = known := by
  induction rules with
  | nil => rfl
  | cons r rules ih =>
      obtain ⟨hr, hrules⟩ := List.forall_mem_cons.mp hrules
      obtain ⟨ho, hold⟩ := List.forall_mem_cons.mp hold
      rw [List.foldl_cons, hk.addWords_eq_self hr ho]
      exact ih hrules hold

end Collected

/-! ## Rounds -/

/-- The rules of a table are its heads with their bodies, each body by itself. -/
theorem mem_rules {t : RuleTable} (hnd : t.heads.Nodup) {r : Symbol × Body} :
    r ∈ (t.flatMap fun e => e.2.map fun b => (e.1, b)) ↔ r.2 ∈ t.bodies r.1 := by
  simp only [List.mem_flatMap, List.mem_map]
  constructor
  · rintro ⟨e, he, b, hb, rfl⟩
    rw [bodies_eq_of_mem hnd he]
    exact hb
  · intro h
    obtain ⟨e, he, heq⟩ := List.mem_map.mp (mem_heads_of_mem_bodies h)
    refine ⟨e, he, r.2, ?_, by rw [heq]⟩
    rw [← bodies_eq_of_mem hnd he, heq]
    exact h

/-- Stopping early does not matter, since a round that changes nothing can be repeated. -/
theorem wordRounds_eq_iterate (entries : List (Symbol × List Body)) (n : Nat) (known : WordTable) :
    wordRounds entries maxLen n known = (wordRound entries maxLen)^[n] known := by
  induction n generalizing known with
  | zero => rfl
  | succ n ih =>
      rw [Function.iterate_succ_apply]
      unfold wordRounds
      by_cases h : wordRound entries maxLen known = known
      · rw [if_pos h, h, Function.iterate_fixed h]
      · rw [if_neg h, ih]

namespace Collected

variable {t : RuleTable} (hnd : t.heads.Nodup) (hlow : ∀ s ∈ t.heads, s.isLower = false)
include hnd hlow

theorem round (hk : Collected t maxLen known) :
    Collected t maxLen (wordRound t maxLen known) ∧
    ∀ s c w, c ∈ t.bodies s → w.length ≤ maxLen → Reads (Given known) c w →
      w ∈ (wordRound t maxLen known).bodies s := by
  have hrules : ∀ r ∈ (t.flatMap fun e => e.2.map fun b => (e.1, b)),
      r.2 ∈ t.bodies r.1 ∧ r.1.isLower = false := by
    intro r hr
    have hr := (mem_rules hnd).mp hr
    exact ⟨hr, hlow _ (mem_heads_of_mem_bodies hr)⟩
  obtain ⟨hcoll, _, hadd⟩ := hk.addAll hrules
  exact ⟨hcoll, fun s c w hc hlen hread => hadd (s, c) ((mem_rules hnd).mpr hc) w hlen hread⟩

/-- **All rounds.** After `n` rounds the table collects derived words, and among them all short words
    within height `n`. -/
theorem rounds (hk : Collected t maxLen known) (n : Nat) :
    Collected t maxLen ((wordRound t maxLen)^[n] known) ∧
    ∀ s w, w.length ≤ maxLen → t.Within n s w →
      w ∈ ((wordRound t maxLen)^[n] known).bodies s := by
  induction n with
  | zero => exact ⟨hk, fun _ _ _ h => h.elim⟩
  | succ n ih =>
      obtain ⟨hcoll, hfound⟩ := ih
      obtain ⟨hnext, hadd⟩ := hcoll.round hnd hlow
      rw [Function.iterate_succ_apply']
      refine ⟨hnext, ?_⟩
      rintro s w hlen ⟨c, hc, hread⟩
      apply hadd s c w hc hlen
      -- the words a short word is read from are short themselves
      apply hread.mono_below
      intro x u hu hx
      apply hfound x u _ hx
      rcases hu with hlt | rfl
      · omega
      · exact hlen

/-- A table that collects all short derived words is left alone by a further round. -/
theorem wordRound_eq_self (hk : Collected t maxLen known)
    (hall : ∀ s w, w.length ≤ maxLen → t.Derives [s] w → s ∈ t.heads → w ∈ known.bodies s) :
    wordRound t maxLen known = known := by
  refine hk.addAll_eq_self (fun r hr => (mem_rules hnd).mp hr) fun r hr w hlen hread => ?_
  have hr := (mem_rules hnd).mp hr
  have hhead := mem_heads_of_mem_bodies hr
  exact hall r.1 w hlen (hk.derives_of_reads hr (hlow _ hhead) hread) hhead

end Collected

/-! ## The words of a grammar -/

section Grammar

variable (g : Grammar) (maxLen : Nat)

theorem heads_entries_nodup : (heads g.entries).Nodup := by
  rw [Parts.heads_entries g.wellFormed.count]
  exact g.wellFormed.nonterminals_nodup

theorem heads_entries_not_lower : ∀ s ∈ heads g.entries, s.isLower = false := by
  intro s hs
  rw [Parts.heads_entries g.wellFormed.count] at hs
  exact g.wellFormed.nonterminal_not_lower hs

/-- Before the first round no words are known. -/
theorem collected_start : Collected g.entries maxLen (g.nonterminals.map fun nt => (nt, [])) := by
  have hnone : ∀ s, RuleTable.bodies (g.nonterminals.map fun nt => (nt, [])) s = [] := by
    intro s
    induction g.nonterminals with
    | nil => rfl
    | cons nt nts ih =>
        rw [List.map_cons, bodies_cons, ih]
        simp
  have hempty : ∀ s w, w ∉ RuleTable.bodies (g.nonterminals.map fun nt => (nt, [])) s := by
    intro s w
    rw [hnone]
    exact List.not_mem_nil
  constructor
  · rw [Parts.heads_entries g.wellFormed.count, heads, List.map_map]
    exact List.map_id _
  · exact fun s w hw => absurd hw (hempty s w)
  · exact fun s w hw => absurd hw (hempty s w)
  · intro s
    rw [hnone, List.eq_nil_iff_forall_not_mem]
    intro w hw
    exact List.not_mem_nil ((Body.mem_canonical (fun b hb => absurd hb List.not_mem_nil)).mp hw)

/-- The words known after a number of rounds. -/
def wordsAfter (n : Nat) : WordTable :=
  (wordRound g.entries maxLen)^[n] (g.nonterminals.map fun nt => (nt, []))

/-- A number of rounds that is always enough. -/
def enoughRounds : Nat := g.nonterminals.length * (maxLen + 1)

theorem collected_wordsAfter (n : Nat) : Collected g.entries maxLen (wordsAfter g maxLen n) :=
  ((collected_start g maxLen).rounds (heads_entries_nodup g) (heads_entries_not_lower g) n).1

/-- Enough rounds find all short words, since these have derivations of bounded height. -/
theorem mem_wordsAfter {s : Symbol} (hs : s ∈ g.nonterminals) {w : Word} :
    w ∈ (wordsAfter g maxLen (enoughRounds g maxLen)).bodies s ↔
      w.length ≤ maxLen ∧ Derives g.entries [s] w := by
  have hk := collected_wordsAfter g maxLen (enoughRounds g maxLen)
  refine ⟨fun hw => ⟨hk.short s w hw, hk.derived s w hw⟩, ?_⟩
  rintro ⟨hlen, hd⟩
  obtain ⟨n, hn⟩ := (derives_iff_exists_within (g.wellFormed.nonterminal_not_lower hs)).mp hd
  apply ((collected_start g maxLen).rounds (heads_entries_nodup g) (heads_entries_not_lower g) _).2
  · exact hlen
  · apply hn.bounded.mono
    rw [Parts.heads_entries g.wellFormed.count]
    exact Nat.mul_le_mul_left _ (Nat.succ_le_succ hlen)

/-- A round after enough rounds changes nothing. -/
theorem wordRound_wordsAfter :
    wordRound g.entries maxLen (wordsAfter g maxLen (enoughRounds g maxLen))
      = wordsAfter g maxLen (enoughRounds g maxLen) := by
  apply (collected_wordsAfter g maxLen _).wordRound_eq_self (heads_entries_nodup g)
    (heads_entries_not_lower g)
  intro s w hlen hd hs
  rw [Parts.heads_entries g.wellFormed.count] at hs
  exact (mem_wordsAfter g maxLen hs).mpr ⟨hlen, hd⟩

/-- The words that are returned are those known after enough rounds. -/
theorem wordsUpTo_eq : wordsUpTo g maxLen = wordsAfter g maxLen (enoughRounds g maxLen) := by
  unfold wordsUpTo
  rw [wordRounds_eq_iterate, Function.iterate_succ_apply']
  exact wordRound_wordsAfter g maxLen

end Grammar

/-- **Bounded enumeration is exact.** The rounds over the rules come to an end: a round more changes
    nothing. The list for a nonterminal is strictly increasing in the byte order, and its members are
    the words of at most the given length that the nonterminal derives. -/
theorem enumerateFrom?_exact (g : Grammar) (nt : Symbol) (hnt : nt ∈ g.nonterminals) (maxLen : Int)
    (hlen : 0 ≤ maxLen) :
    wordRound g.entries maxLen.toNat (wordsUpTo g maxLen.toNat) = wordsUpTo g maxLen.toNat ∧
    ∃ words, enumerateFrom? g nt maxLen = some words ∧
      words.Pairwise (fun u v => bytes (Body.chars u) < bytes (Body.chars v)) ∧
      ∀ w, w ∈ words ↔ (w.length : Int) ≤ maxLen ∧ Derives g.entries [nt] w := by
  have hdecl : g.isNonterminal nt = true := List.contains_iff_mem.mpr hnt
  unfold enumerateFrom?
  rw [hdecl, if_neg (by simpa using hlen), wordsUpTo_eq]
  refine ⟨wordRound_wordsAfter g _, _, rfl, ?_, fun w => ?_⟩
  · rw [← (collected_wordsAfter g _ _).canonical nt]
    exact Body.canonical_strict _
  · rw [mem_wordsAfter g _ hnt]
    exact and_congr_left' (by omega)

/-- Balanced brackets: a grammar with nullable recursion. -/
def bracketParts : Parts where
  terminals := Body.ofText "ab"
  nonterminals := Body.ofText "S"
  productions := [[Body.ofText "SS", Body.ofText "aSb", Body.ofText ""]]

def brackets : Grammar := ⟨bracketParts, false, by decide⟩

theorem enumerateFrom?_brackets :
    ∃ words, enumerateFrom? brackets (Symbol.ofChar 'S') 4 = some words ∧ Body.ofText "abab" ∈ words := by
  obtain ⟨_, words, hok, _, hmem⟩ :=
    enumerateFrom?_exact brackets (Symbol.ofChar 'S') (by decide) 4 (by decide)
  refine ⟨words, hok, (hmem _).mpr ⟨by decide, ?_⟩⟩
  have hnil : Derives brackets.entries [Symbol.ofChar 'S'] [] :=
    Derives.rule rfl (show Body.ofText "" ∈ _ by decide) .nil
  have hpair : Derives brackets.entries [Symbol.ofChar 'S'] (Body.ofText "ab") :=
    Derives.rule rfl (show Body.ofText "aSb" ∈ _ by decide)
      (.terminal rfl (hnil.append (.terminal rfl .nil)))
  exact Derives.rule rfl (show Body.ofText "SS" ∈ _ by decide) (hpair.append hpair)

end LetterGrammar
