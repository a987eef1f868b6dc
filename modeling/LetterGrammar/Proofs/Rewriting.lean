import LetterGrammar.Grammar.Derivation
import LetterGrammar.Greibach.Leading
import LetterGrammar.Proofs.RuleTable

/-!
# Changes of a table that keep its words

The words of a table are its least reading: every way to give words to symbols that the rules respect
contains them (`Derives.least`). All else in this module is an application of that principle.

## Contents

- **`Reads`**: the words of a body when each nonterminal is given words of its own.
- **`Derives.least`**, **`Derives.transfer`**: what is derived is read by every reading closed under the
  rules, and by every table in which the rules are admissible.
- **`derives_map_iff`**: renaming nonterminals renames derivations; `derives_congr` and
  `derives_restrict` are its cases without renaming.
- **`derives_set_expand`**: replacing leading symbols by their bodies keeps all words.
- **`Unwound`**, **`Unwound.derives_iff`**: trading left recursion for right recursion through a fresh
  symbol keeps the words of every body that lacks the fresh symbol.
-/

namespace LetterGrammar
namespace RuleTable

variable {t t' : RuleTable}

/-! ## Readings -/

/-- The words of a body when terminals stand for themselves and a nonterminal for any word it is given. -/
def Reads (given : Symbol → Word → Prop) : Body → Word → Prop
  | [], w => w = []
  | s :: b, w => ∃ u v, w = u ++ v ∧ (if s.isLower = true then u = [s] else given s u) ∧ Reads given b v

theorem reads_append_iff {given : Symbol → Word → Prop} {a b : Body} {w : Word} :
    Reads given (a ++ b) w ↔ ∃ u v, w = u ++ v ∧ Reads given a u ∧ Reads given b v := by
  induction a generalizing w with
  | nil => exact ⟨fun h => ⟨[], w, rfl, rfl, h⟩, fun ⟨_, _, hw, hu, hv⟩ => by rw [hw, hu]; exact hv⟩
  | cons s a ih =>
      constructor
      · rintro ⟨x, y, rfl, hx, hy⟩
        obtain ⟨u, v, rfl, hu, hv⟩ := ih.mp hy
        exact ⟨x ++ u, v, (List.append_assoc ..).symm, ⟨x, u, rfl, hx, hu⟩, hv⟩
      · rintro ⟨_, v, rfl, ⟨x, u, rfl, hx, hu⟩, hv⟩
        exact ⟨x, u ++ v, List.append_assoc .., hx, ih.mpr ⟨u, v, rfl, hu, hv⟩⟩

/-- A reading that gives more words to the nonterminals of a body reads more words. -/
theorem Reads.mono {given given' : Symbol → Word → Prop} {b : Body} {w : Word}
    (hsub : ∀ s ∈ b, s.isLower = false → ∀ u, given s u → given' s u) (h : Reads given b w) :
    Reads given' b w := by
  induction b generalizing w with
  | nil => exact h
  | cons s b ih =>
      obtain ⟨u, v, rfl, hu, hv⟩ := h
      refine ⟨u, v, rfl, ?_, ih (fun x hx => hsub x (List.mem_cons_of_mem _ hx)) hv⟩
      by_cases hs : s.isLower = true
      · rw [if_pos hs] at hu ⊢
        exact hu
      · rw [if_neg hs] at hu ⊢
        exact hsub s List.mem_cons_self (Bool.eq_false_iff.mpr hs) u hu

/-- In a body that reads a word, every nonterminal is given one. -/
theorem Reads.exists_given {given : Symbol → Word → Prop} {b : Body} {w : Word} (h : Reads given b w)
    {s : Symbol} (hs : s ∈ b) (hlow : s.isLower = false) : ∃ u, given s u := by
  induction b generalizing w with
  | nil => exact absurd hs List.not_mem_nil
  | cons x b ih =>
      obtain ⟨u, v, rfl, hu, hv⟩ := h
      rcases List.mem_cons.mp hs with rfl | hs
      · rw [if_neg (Bool.eq_false_iff.mp hlow)] at hu
        exact ⟨u, hu⟩
      · exact ih hv hs

theorem reads_singleton_iff {given : Symbol → Word → Prop} {s : Symbol} (hs : s.isLower = false)
    {w : Word} : Reads given [s] w ↔ given s w := by
  simp only [Reads, hs, Bool.false_eq_true, if_false]
  constructor
  · rintro ⟨u, v, rfl, hu, rfl⟩
    rw [List.append_nil]
    exact hu
  · exact fun h => ⟨w, [], (List.append_nil w).symm, h, rfl⟩

/-- A table derives what its own words read. -/
theorem derives_iff_reads {b : Body} {w : Word} :
    Derives t b w ↔ Reads (fun s => Derives t [s]) b w := by
  induction b generalizing w with
  | nil => exact derives_nil_iff
  | cons s b ih =>
      rw [← List.singleton_append, derives_append_iff]
      constructor
      · rintro ⟨u, v, rfl, hu, hv⟩
        refine ⟨u, v, rfl, ?_, ih.mp hv⟩
        split
        · rename_i hs
          exact (derives_terminal_iff hs).mp hu
        · exact hu
      · rintro ⟨u, v, rfl, hu, hv⟩
        refine ⟨u, v, rfl, ?_, ih.mpr hv⟩
        split at hu
        · rename_i hs
          exact (derives_terminal_iff hs).mpr hu
        · exact hu

/-- **The words of a table are its least reading**: a reading closed under the rules reads them all. -/
theorem Derives.least {given : Symbol → Word → Prop}
    (hclosed : ∀ s c, s.isLower = false → c ∈ t.bodies s → ∀ w, Reads given c w → given s w)
    {b : Body} {w : Word} (h : Derives t b w) : Reads given b w := by
  induction h with
  | nil => rfl
  | @terminal s b w hs _ ih => exact ⟨[s], w, rfl, by rw [if_pos hs], ih⟩
  | @nonterminal s c b u w hs hc _ _ ihc ih =>
      refine ⟨u, w, rfl, ?_, ih⟩
      rw [if_neg (Bool.eq_false_iff.mp hs)]
      exact hclosed s c hs hc u ihc

/-- If every rule of one table is admissible in another, all derivations carry over. -/
theorem Derives.transfer
    (hrules : ∀ s c, s.isLower = false → c ∈ t.bodies s → ∀ w, Derives t' c w → Derives t' [s] w)
    {b : Body} {w : Word} (h : Derives t b w) : Derives t' b w :=
  derives_iff_reads.mpr
    (h.least fun s c hs hc w hw => hrules s c hs hc w (derives_iff_reads.mpr hw))

/-- One rule, applied at the root. -/
theorem Derives.rule {s : Symbol} {c : Body} {w : Word} (hs : s.isLower = false)
    (hc : c ∈ t.bodies s) (h : Derives t c w) : Derives t [s] w :=
  (derives_nonterminal_iff hs).mpr ⟨c, hc, h⟩

/-- A body derives a word once each of its nonterminals does. -/
theorem exists_derives {b : Body} (h : ∀ s ∈ b, s.isLower = true ∨ ∃ w, Derives t [s] w) :
    ∃ w, Derives t b w := by
  induction b with
  | nil => exact ⟨[], .nil⟩
  | cons s b ih =>
      obtain ⟨hs, hb⟩ := List.forall_mem_cons.mp h
      obtain ⟨v, hv⟩ := ih hb
      rcases hs with hs | ⟨u, hu⟩
      · exact ⟨s :: v, .terminal hs hv⟩
      · exact ⟨u ++ v, hu.append hv⟩

/-- A nonterminal whose bodies all start with itself derives nothing. -/
theorem not_derives_of_forall_self {x : Symbol} (hx : x.isLower = false)
    (h : ∀ b ∈ t.bodies x, ∃ rest, b = x :: rest) (w : Word) : ¬ Derives t [x] w := by
  intro hw
  -- the reading without a word for `x` is closed: a body of `x` would need one for its first symbol
  have hread : Reads (fun s _ => s ≠ x) [x] w := by
    refine hw.least fun s c _ hc u hu hsx => ?_
    subst hsx
    obtain ⟨rest, rfl⟩ := h c hc
    obtain ⟨_, _, _, hself, _⟩ := hu
    rw [if_neg (Bool.eq_false_iff.mp hx)] at hself
    exact hself rfl
  exact (reads_singleton_iff hx).mp hread rfl

/-! ## Renaming, restriction and congruence -/

/-- **Renaming nonterminals renames derivations.** The renaming is about a class of nonterminals that
    the rules do not leave; the renamed table has exactly the renamed bodies for them. -/
theorem derives_map_iff {f : Symbol → Symbol} {K : Symbol → Prop}
    (hK : ∀ s, K s → s.isLower = false ∧ (f s).isLower = false)
    (hlow : ∀ s, s.isLower = true → f s = s)
    (hin : ∀ s, K s → ∀ b ∈ t.bodies s, ∀ x ∈ b, x.isLower = true ∨ K x)
    (hbodies : ∀ s, K s → ∀ b', b' ∈ t'.bodies (f s) ↔ ∃ b ∈ t.bodies s, b.map f = b')
    {b : Body} (hb : ∀ x ∈ b, x.isLower = true ∨ K x) {w : Word} :
    Derives t b w ↔ Derives t' (b.map f) w := by
  constructor
  · intro h
    induction h with
    | nil => exact .nil
    | @terminal s b w hs _ ih =>
        rw [List.map_cons, hlow s hs]
        exact .terminal hs (ih (List.forall_mem_cons.mp hb).2)
    | @nonterminal s c b u w hs hc _ _ ihc ih =>
        obtain ⟨hsK, hbK⟩ := List.forall_mem_cons.mp hb
        have hks : K s := hsK.resolve_left (Bool.eq_false_iff.mp hs)
        exact .nonterminal (hK s hks).2 ((hbodies s hks _).mpr ⟨c, hc, rfl⟩) (ihc (hin s hks c hc))
          (ih hbK)
  · -- by induction on the derivation of the renamed body, which is taken apart along with it
    intro h
    generalize hb' : b.map f = b' at h
    induction h generalizing b with
    | nil =>
        rw [List.map_eq_nil_iff.mp hb']
        exact .nil
    | @terminal s' _ w hs' _ ih =>
        obtain ⟨s, b, rfl, rfl, rfl⟩ := List.map_eq_cons_iff.mp hb'
        obtain ⟨hsK, hbK⟩ := List.forall_mem_cons.mp hb
        rcases hsK with hs | hks
        · rw [hlow s hs]
          exact .terminal hs (ih hbK rfl)
        · exact absurd hs' (Bool.eq_false_iff.mp (hK s hks).2)
    | @nonterminal s' c' _ u w hs' hc' _ _ ihc ih =>
        obtain ⟨s, b, rfl, rfl, rfl⟩ := List.map_eq_cons_iff.mp hb'
        obtain ⟨hsK, hbK⟩ := List.forall_mem_cons.mp hb
        rcases hsK with hs | hks
        · rw [hlow s hs] at hs'
          exact absurd hs (Bool.eq_false_iff.mp hs')
        · obtain ⟨c, hc, hmap⟩ := (hbodies s hks c').mp hc'
          exact .nonterminal (hK s hks).1 hc (ihc (hin s hks c hc) hmap) (ih hbK rfl)

/-- Tables that agree on a class of nonterminals which their rules do not leave derive the same words
    from bodies of that class. -/
theorem derives_restrict {K : Symbol → Prop} (hK : ∀ s, K s → s.isLower = false)
    (hin : ∀ s, K s → ∀ b ∈ t.bodies s, ∀ x ∈ b, x.isLower = true ∨ K x)
    (hbodies : ∀ s, K s → ∀ b, b ∈ t'.bodies s ↔ b ∈ t.bodies s)
    {b : Body} (hb : ∀ x ∈ b, x.isLower = true ∨ K x) {w : Word} :
    Derives t b w ↔ Derives t' b w := by
  have h : Derives t b w ↔ Derives t' (b.map id) w :=
    derives_map_iff (fun s hs => ⟨hK s hs, hK s hs⟩) (fun _ _ => rfl) hin
      (fun s hs b' => by simp [hbodies s hs b']) hb
  rwa [List.map_id] at h

/-- The words of a table depend on the sets of bodies only. -/
theorem derives_congr (h : ∀ s b, b ∈ t'.bodies s ↔ b ∈ t.bodies s) {b : Body} {w : Word} :
    Derives t b w ↔ Derives t' b w := by
  have hclass : ∀ x : Symbol, x.isLower = true ∨ x.isLower = false := fun x => by
    cases x.isLower <;> simp
  exact derives_restrict (K := fun s => s.isLower = false) (fun _ hs => hs)
    (fun _ _ _ _ x _ => hclass x) (fun s _ => h s) (fun x _ => hclass x)

/-! ## Replacing leading symbols -/

/-- A body stands for itself if it does not start in the class, and else for its expansions. -/
theorem mem_expandLeading {lead : Symbol → Bool} {b c : Body} :
    c ∈ expandLeading lead t b ↔
      (startsIn lead b = false ∧ c = b) ∨
      ∃ y rest q, b = y :: rest ∧ lead y = true ∧ q ∈ t.bodies y ∧ c = q ++ rest := by
  cases b with
  | nil => simp [expandLeading, startsIn]
  | cons y rest =>
      simp only [expandLeading, startsIn]
      by_cases hy : lead y = true
      · rw [if_pos hy, List.mem_map]
        constructor
        · rintro ⟨q, hq, rfl⟩
          exact Or.inr ⟨y, rest, q, rfl, hy, hq, rfl⟩
        · rintro (⟨hn, _⟩ | ⟨_, _, q, heq, _, hq, rfl⟩)
          · exact absurd hy (Bool.eq_false_iff.mp hn)
          · injection heq with hyy hrr
            subst hyy hrr
            exact ⟨q, hq, rfl⟩
      · rw [if_neg hy, List.mem_singleton]
        constructor
        · exact fun hc => Or.inl ⟨Bool.eq_false_iff.mpr hy, hc⟩
        · rintro (⟨_, hc⟩ | ⟨_, _, _, heq, hl, _⟩)
          · exact hc
          · injection heq with hyy _
            exact absurd (hyy ▸ hl) hy

/-- **Replacing leading symbols keeps all words**, as long as the bodies of a head are not replaced
    inside themselves. -/
theorem derives_set_expand {lead : Symbol → Bool} {x : Symbol} {bs : List Body}
    (hx : x.isLower = false) (hlead : ∀ s, lead s = true → s.isLower = false)
    (hself : ∀ y rest, y :: rest ∈ bs → lead y = true → y ≠ x) {b : Body} {w : Word} :
    Derives (t.set x bs) b w ↔ Derives (t.set x (bs.flatMap (expandLeading lead t))) b w := by
  constructor
  · -- an old rule of `x` that was expanded is the expansion at the body its first symbol takes
    refine Derives.transfer fun s c hs hc u hu => ?_
    by_cases hsx : s = x
    · subst hsx
      rw [bodies_set_self] at hc
      by_cases hstart : startsIn lead c = true
      · cases c with
        | nil => exact absurd hstart (by simp [startsIn])
        | cons y rest =>
            have hy : lead y = true := hstart
            have hyx : y ≠ s := hself y rest hc hy
            rw [← List.singleton_append, derives_append_iff] at hu
            obtain ⟨u₁, u₂, rfl, hu₁, hu₂⟩ := hu
            obtain ⟨q, hq, hqu⟩ := (derives_nonterminal_iff (hlead y hy)).mp hu₁
            rw [bodies_set_ne hyx] at hq
            refine Derives.rule hs ?_ (hqu.append hu₂)
            rw [bodies_set_self]
            exact List.mem_flatMap.mpr
              ⟨_, hc, mem_expandLeading.mpr (Or.inr ⟨y, rest, q, rfl, hy, hq, rfl⟩)⟩
      · refine Derives.rule hs ?_ hu
        rw [bodies_set_self]
        exact List.mem_flatMap.mpr
          ⟨c, hc, mem_expandLeading.mpr (Or.inl ⟨Bool.eq_false_iff.mpr hstart, rfl⟩)⟩
    · rw [bodies_set_ne hsx] at hc
      exact Derives.rule hs (by rw [bodies_set_ne hsx]; exact hc) hu
  · -- an expansion is the old rule with a rule of its first symbol applied in it
    refine Derives.transfer fun s c hs hc u hu => ?_
    by_cases hsx : s = x
    · subst hsx
      rw [bodies_set_self] at hc
      obtain ⟨c₀, hc₀, hexp⟩ := List.mem_flatMap.mp hc
      have hc₀' : c₀ ∈ (t.set s bs).bodies s := by rw [bodies_set_self]; exact hc₀
      rcases mem_expandLeading.mp hexp with ⟨_, rfl⟩ | ⟨y, rest, q, rfl, hy, hq, rfl⟩
      · exact Derives.rule hs hc₀' hu
      · obtain ⟨u₁, u₂, rfl, hu₁, hu₂⟩ := derives_append_iff.mp hu
        have hyx : y ≠ s := hself y rest hc₀ hy
        have hyu : Derives (t.set s bs) [y] u₁ :=
          Derives.rule (hlead y hy) (by rw [bodies_set_ne hyx]; exact hq) hu₁
        exact Derives.rule hs hc₀' (hyu.append hu₂)
    · rw [bodies_set_ne hsx] at hc
      exact Derives.rule hs (by rw [bodies_set_ne hsx]; exact hc) hu

/-! ## Trading left recursion for right recursion -/

/-- The second table has `x → base | base aux` and `aux → tails | tails aux` where the first one has
    `x → base | x tails`; the first table does not know `aux`. -/
structure Unwound (t t' : RuleTable) (x aux : Symbol) (base tails : List Body) : Prop where
  head_nonterminal : x.isLower = false
  aux_nonterminal : aux.isLower = false
  aux_ne : aux ≠ x
  aux_no_head : t.bodies aux = []
  aux_unused : ∀ s, ∀ b ∈ t.bodies s, aux ∉ b
  /-- A body of the head is a base body, a recursive one, or the head alone. -/
  split : ∀ b ∈ t.bodies x, b ∈ base ∨ (∃ a ∈ tails, b = x :: a) ∨ b = [x]
  base_sub : ∀ b ∈ base, b ∈ t.bodies x
  tails_sub : ∀ a ∈ tails, x :: a ∈ t.bodies x
  head_bodies : ∀ b, b ∈ t'.bodies x ↔ b ∈ base ∨ ∃ c ∈ base, b = c ++ [aux]
  aux_bodies : ∀ b, b ∈ t'.bodies aux ↔ b ∈ tails ∨ ∃ a ∈ tails, b = a ++ [aux]
  other_bodies : ∀ s, s ≠ x → s ≠ aux → t'.bodies s = t.bodies s

/-- One or more words of the given bodies in a row. -/
inductive Row (t : RuleTable) (tails : List Body) : Word → Prop
  | one {a : Body} {u : Word} (ha : a ∈ tails) (hu : Derives t a u) : Row t tails u
  | more {a : Body} {u v : Word} (ha : a ∈ tails) (hu : Derives t a u) (hv : Row t tails v) :
      Row t tails (u ++ v)

/-- A further word at the end of a row. -/
theorem Row.snoc {tails : List Body} {a : Body} {u v : Word} (h : Row t tails u) (ha : a ∈ tails)
    (hv : Derives t a v) : Row t tails (u ++ v) := by
  induction h with
  | one hb hu => exact .more hb hu (.one ha hv)
  | more hb hu _ ih =>
      rw [List.append_assoc]
      exact .more hb hu ih

namespace Unwound

variable {x aux : Symbol} {base tails : List Body}

/-- The reading that gives the fresh symbol the rows of the tails and any other symbol its words. -/
def rowReading (t : RuleTable) (aux : Symbol) (tails : List Body) (s : Symbol) (w : Word) : Prop :=
  if s = aux then Row t tails w else Derives t [s] w

theorem rowReading_aux {w : Word} : rowReading t aux tails aux w ↔ Row t tails w := by
  unfold rowReading
  rw [if_pos rfl]

theorem rowReading_ne {s : Symbol} (h : s ≠ aux) {w : Word} :
    rowReading t aux tails s w ↔ Derives t [s] w := by
  unfold rowReading
  rw [if_neg h]

/-- A body without the fresh symbol reads what it derives. -/
theorem derives_of_reads {b : Body} (hb : aux ∉ b) {w : Word}
    (h : Reads (rowReading t aux tails) b w) : Derives t b w :=
  derives_iff_reads.mpr
    (h.mono fun s hs _ _ hu => (rowReading_ne fun (he : s = aux) => hb (he ▸ hs)).mp hu)

/-- A body followed by the fresh symbol reads one of its words followed by a row. -/
theorem reads_snoc_aux (haux : aux.isLower = false) {b : Body} (hb : aux ∉ b) {w : Word}
    (h : Reads (rowReading t aux tails) (b ++ [aux]) w) :
    ∃ u v, w = u ++ v ∧ Derives t b u ∧ Row t tails v := by
  obtain ⟨u, v, rfl, hu, hv⟩ := reads_append_iff.mp h
  exact ⟨u, v, rfl, derives_of_reads hb hu, rowReading_aux.mp ((reads_singleton_iff haux).mp hv)⟩

variable (U : Unwound t t' x aux base tails)
include U

theorem aux_not_mem_base {b : Body} (hb : b ∈ base) : aux ∉ b :=
  U.aux_unused x b (U.base_sub b hb)

theorem aux_not_mem_tail {a : Body} (ha : a ∈ tails) : aux ∉ a :=
  fun h => U.aux_unused x _ (U.tails_sub a ha) (List.mem_cons_of_mem _ h)

/-- In the first table, a row after a word of the head gives a word of the head. -/
theorem derives_append_row {u v : Word} (hu : Derives t [x] u) (hv : Row t tails v) :
    Derives t [x] (u ++ v) := by
  induction hv generalizing u with
  | one ha hv => exact Derives.rule U.head_nonterminal (U.tails_sub _ ha) (hu.append hv)
  | more ha hv _ ih =>
      rw [← List.append_assoc]
      exact ih (Derives.rule U.head_nonterminal (U.tails_sub _ ha) (hu.append hv))

/-- A body of the fresh symbol reads a row, whichever table gives the other symbols their words. -/
theorem row_of_reads {r : RuleTable} {c : Body} {w : Word} (hc : c ∈ t'.bodies aux)
    (hw : Reads (rowReading r aux tails) c w) : Row r tails w := by
  rcases (U.aux_bodies c).mp hc with hc | ⟨a, ha, rfl⟩
  · exact .one hc (derives_of_reads (U.aux_not_mem_tail hc) hw)
  · obtain ⟨u, v, rfl, hu, hv⟩ := reads_snoc_aux U.aux_nonterminal (U.aux_not_mem_tail ha) hw
    exact .more ha hu hv

/-- The row reading of the first table respects the rules of the second one. -/
theorem rowReading_rule {s : Symbol} {c : Body} {w : Word} (hs : s.isLower = false)
    (hc : c ∈ t'.bodies s) (hw : Reads (rowReading t aux tails) c w) :
    rowReading t aux tails s w := by
  by_cases hsa : s = aux
  · subst hsa
    exact rowReading_aux.mpr (U.row_of_reads hc hw)
  · rw [rowReading_ne hsa]
    by_cases hsx : s = x
    · subst hsx
      rcases (U.head_bodies c).mp hc with hc | ⟨c, hcb, rfl⟩
      · exact Derives.rule hs (U.base_sub c hc) (derives_of_reads (U.aux_not_mem_base hc) hw)
      · obtain ⟨u, v, rfl, hu, hv⟩ := reads_snoc_aux U.aux_nonterminal (U.aux_not_mem_base hcb) hw
        exact U.derives_append_row (Derives.rule hs (U.base_sub c hcb) hu) hv
    · rw [U.other_bodies s hsx hsa] at hc
      exact Derives.rule hs hc (derives_of_reads (U.aux_unused s c hc) hw)

/-- The second table derives no more than the first. -/
theorem derives_of_unwound {b : Body} (hb : aux ∉ b) {w : Word} (h : Derives t' b w) :
    Derives t b w :=
  derives_of_reads hb (h.least fun _ _ hs hc _ hw => U.rowReading_rule hs hc hw)

/-- In the second table, rows are words of the fresh symbol. -/
theorem derives_aux_of_row {w : Word} (h : Row t' tails w) : Derives t' [aux] w := by
  induction h with
  | one ha hu => exact Derives.rule U.aux_nonterminal ((U.aux_bodies _).mpr (Or.inl ha)) hu
  | more ha hu _ ih =>
      exact Derives.rule U.aux_nonterminal ((U.aux_bodies _).mpr (Or.inr ⟨_, ha, rfl⟩)) (hu.append ih)

/-- In the second table, the words of the fresh symbol are rows. -/
theorem row_of_derives_aux {w : Word} (h : Derives t' [aux] w) : Row t' tails w := by
  have hread : Reads (rowReading t' aux tails) [aux] w := by
    refine h.least fun s c hs hc w hw => ?_
    by_cases hsa : s = aux
    · subst hsa
      exact rowReading_aux.mpr (U.row_of_reads hc hw)
    · rw [rowReading_ne hsa]
      refine Derives.rule hs hc (derives_iff_reads.mpr (hw.mono fun y _ _ u hu => ?_))
      by_cases hya : y = aux
      · subst hya
        exact U.derives_aux_of_row (rowReading_aux.mp hu)
      · exact (rowReading_ne hya).mp hu
  exact rowReading_aux.mp ((reads_singleton_iff U.aux_nonterminal).mp hread)

/-- In the second table, a tail after a word of the head gives a word of the head. -/
theorem derives_append_tail {a : Body} {u v : Word} (ha : a ∈ tails) (hu : Derives t' [x] u)
    (hv : Derives t' a v) : Derives t' [x] (u ++ v) := by
  have hx := U.head_nonterminal
  obtain ⟨c, hc, hcu⟩ := (derives_nonterminal_iff hx).mp hu
  rcases (U.head_bodies c).mp hc with hc | ⟨c, hcb, rfl⟩
  · refine Derives.rule hx ((U.head_bodies _).mpr (Or.inr ⟨c, hc, rfl⟩)) (hcu.append ?_)
    exact U.derives_aux_of_row (.one ha hv)
  · -- the word ends in a row already, so the tail goes to the end of that row
    obtain ⟨u₁, u₂, rfl, hu₁, hu₂⟩ := derives_append_iff.mp hcu
    rw [List.append_assoc]
    refine Derives.rule hx ((U.head_bodies _).mpr (Or.inr ⟨c, hcb, rfl⟩)) (hu₁.append ?_)
    exact U.derives_aux_of_row ((U.row_of_derives_aux hu₂).snoc ha hv)

/-- The first table derives no more than the second. -/
theorem unwound_of_derives {b : Body} {w : Word} (h : Derives t b w) : Derives t' b w := by
  refine h.transfer fun s c hs hc u hu => ?_
  by_cases hsa : s = aux
  · rw [hsa, U.aux_no_head] at hc
    exact absurd hc List.not_mem_nil
  · by_cases hsx : s = x
    · subst hsx
      rcases U.split c hc with hc | ⟨a, ha, rfl⟩ | rfl
      · exact Derives.rule hs ((U.head_bodies c).mpr (Or.inl hc)) hu
      · rw [← List.singleton_append, derives_append_iff] at hu
        obtain ⟨u₁, u₂, rfl, hu₁, hu₂⟩ := hu
        exact U.derives_append_tail ha hu₁ hu₂
      · exact hu
    · exact Derives.rule hs (by rw [U.other_bodies s hsx hsa]; exact hc) hu

/-- **Trading left recursion for right recursion keeps the words** of every body without the fresh
    symbol, also where the tails hold the recursive symbol themselves. -/
theorem derives_iff {b : Body} (hb : aux ∉ b) {w : Word} : Derives t b w ↔ Derives t' b w :=
  ⟨U.unwound_of_derives, U.derives_of_unwound hb⟩

end Unwound

end RuleTable
end LetterGrammar
