import LetterGrammar.Language.Shortest
import LetterGrammar.Proofs.Language.Enumeration
import LetterGrammar.Proofs.Tree

/-!
# Shortest bodies have lowest trees

Heights are only ever lowered, so a recorded body may be out of date: the heights of its nonterminals can
have dropped since. What stays true is that its height is at most the one recorded for it
(`Recorded`), and that is enough to expand every nonterminal by its recorded body. In the other
direction, pass after pass finds the trees of the next height, in whatever order it walks the rules
(`Found`); no lowest tree is higher than there are nonterminals, so that many passes find all and the
one after them improves nothing (`Settled`).

## Contents

- **`AtMost`**, **`bodyHeight?_atMost_iff`**: known heights, and when the height of a body is known.
- **`Lower`**, **`relaxBody_cases`**: what one rule can do to the recorded heights.
- **`Recorded`**, **`Recorded.pass`**: what is true throughout, and what one pass does.
- **`Settles`**, **`settles_relaxUntilStable`**: passes without a limit on their number, and that they
  come to an end.
- **`Recorded.exists_tree`**, **`Settled.atMost_height`**: recorded heights are those of lowest trees.
-/

namespace LetterGrammar

open RuleTable

variable {t : RuleTable} {h h' h'' : Heights} {nt x : Symbol} {b : Body} {k m n : Nat}

/-! ## Recorded heights -/

namespace Heights

theorem lookup_record (h : Heights) (nt : Symbol) (n : Nat) (b : Body) (x : Symbol) :
    (h.record nt n b).lookup x = if x = nt then some (n, b) else h.lookup x := by
  unfold record
  rw [List.lookup_cons]
  by_cases hx : x = nt
  · rw [if_pos hx, beq_iff_eq.mpr hx]
  · rw [if_neg hx, beq_eq_false_iff_ne.mpr hx]
    show (h.filter fun r => r.1 ≠ nt).lookup x = h.lookup x
    -- the entries that are dropped have another key
    induction h with
    | nil => rfl
    | cons e h ih =>
        by_cases he : e.1 = nt
        · have hne : (x == e.1) = false := beq_eq_false_iff_ne.mpr fun hxe => hx (hxe.trans he)
          rw [List.filter_cons_of_neg (by simpa using he), List.lookup_cons, hne]
          exact ih
        · rw [List.filter_cons_of_pos (by simpa using he), List.lookup_cons, List.lookup_cons, ih]

theorem height?_eq_some_iff : h.height? nt = some k ↔ ∃ b, h.lookup nt = some (k, b) := by
  unfold height?
  simp [Option.map_eq_some_iff]

theorem body?_eq_some_iff : h.body? nt = some b ↔ ∃ k, h.lookup nt = some (k, b) := by
  unfold body?
  simp [Option.map_eq_some_iff]

end Heights

/-- The height is known, and it is at most `n`. -/
def AtMost (height : Option Nat) (n : Nat) : Prop := ∃ k ≤ n, height = some k

theorem AtMost.mono {height : Option Nat} (hk : AtMost height m) (hle : m ≤ n) : AtMost height n := by
  obtain ⟨k, hkm, hsome⟩ := hk
  exact ⟨k, Nat.le_trans hkm hle, hsome⟩

theorem atMost_some_iff : AtMost (some k) n ↔ k ≤ n := by
  constructor
  · rintro ⟨k', hle, hsome⟩
    injection hsome with hsome
    exact hsome ▸ hle
  · exact fun hle => ⟨k, hle, rfl⟩

theorem bodyHeight?_cons (h : Heights) (s : Symbol) (b : Body) :
    bodyHeight? h (s :: b) = (bodyHeight? h b).bind fun n =>
      if s.isLower then some n else (h.height? s).map fun k => max n (k + 1) := by
  conv_lhs => unfold bodyHeight?
  cases bodyHeight? h b <;> rfl

/-- The height of a body is known once those of its nonterminals are, and it is one more. -/
theorem bodyHeight?_atMost_iff :
    AtMost (bodyHeight? h b) (n + 1) ↔ ∀ x ∈ b, x.isLower = false → AtMost (h.height? x) n := by
  induction b with
  | nil =>
      refine ⟨fun _ x hx => absurd hx List.not_mem_nil, fun _ => ?_⟩
      exact atMost_some_iff.mpr (Nat.le_add_left 1 n)
  | cons s b ih =>
      rw [List.forall_mem_cons, ← ih, bodyHeight?_cons]
      cases hb : bodyHeight? h b with
      | none => simp [AtMost]
      | some r =>
          cases hs : s.isLower with
          | true => simp
          | false =>
              cases hk : h.height? s with
              | none => simp [AtMost]
              | some k =>
                  simp only [Option.bind_some, Bool.false_eq_true, if_false, Option.map_some,
                    atMost_some_iff, forall_const]
                  omega

theorem not_atMost_bodyHeight?_zero : ¬ AtMost (bodyHeight? h b) 0 := by
  induction b with
  | nil => simp [bodyHeight?, atMost_some_iff]
  | cons s b ih =>
      rw [bodyHeight?_cons]
      cases hb : bodyHeight? h b with
      | none => simp [AtMost]
      | some r =>
          rw [hb, atMost_some_iff] at ih
          cases hs : s.isLower with
          | true => simpa [atMost_some_iff] using ih
          | false =>
              cases hk : h.height? s with
              | none => simp [AtMost]
              | some k => simp [atMost_some_iff]

theorem improves_eq_false_iff : improves h nt n = false ↔ AtMost (h.height? nt) n := by
  unfold improves
  cases hk : h.height? nt with
  | none => simp [AtMost]
  | some k => simp [atMost_some_iff]

/-! ## One rule -/

/-- No height is unknown or greater that was known before. -/
def Lower (h' h : Heights) : Prop := ∀ x n, AtMost (h.height? x) n → AtMost (h'.height? x) n

theorem Lower.refl (h : Heights) : Lower h h := fun _ _ hx => hx

theorem Lower.trans (h₁ : Lower h'' h') (h₂ : Lower h' h) : Lower h'' h :=
  fun x n hx => h₁ x n (h₂ x n hx)

/-- With the heights of its nonterminals, the height of a body gets lower. -/
theorem Lower.bodyHeight (hlow : Lower h' h) (hb : AtMost (bodyHeight? h b) n) :
    AtMost (bodyHeight? h' b) n := by
  cases n with
  | zero => exact absurd hb not_atMost_bodyHeight?_zero
  | succ n =>
      rw [bodyHeight?_atMost_iff] at hb ⊢
      exact fun x hx hl => hlow x n (hb x hx hl)

theorem lower_record (himp : improves h nt n = true) (b : Body) : Lower (h.record nt n b) h := by
  intro x j hx
  unfold Heights.height?
  rw [Heights.lookup_record]
  by_cases hxn : x = nt
  · rw [if_pos hxn]
    apply atMost_some_iff.mpr
    -- otherwise what was recorded before would be at most `n`
    apply Nat.le_of_not_lt
    intro hjn
    rw [hxn] at hx
    rw [improves_eq_false_iff.mpr (hx.mono (Nat.le_of_lt hjn))] at himp
    cases himp
  · rw [if_neg hxn]
    exact hx

/-- **What one rule can do**: nothing if its body improves on nothing, and else record the body. -/
theorem relaxBody_cases (nt : Symbol) (state : Heights × Bool) (b : Body) :
    (relaxBody nt state b = state ∧
      ∀ n, AtMost (bodyHeight? state.1 b) n → AtMost (state.1.height? nt) n) ∨
    ∃ n, bodyHeight? state.1 b = some n ∧ improves state.1 nt n = true ∧
      relaxBody nt state b = (state.1.record nt n b, true) := by
  unfold relaxBody
  cases hb : bodyHeight? state.1 b with
  | none =>
      refine Or.inl ⟨rfl, fun n hn => ?_⟩
      obtain ⟨k, _, hk⟩ := hn
      cases hk
  | some n =>
      dsimp only
      cases himp : improves state.1 nt n with
      | true => exact Or.inr ⟨n, rfl, himp, if_pos rfl⟩
      | false =>
          refine Or.inl ⟨if_neg Bool.false_ne_true, fun j hj => ?_⟩
          exact (improves_eq_false_iff.mp himp).mono (atMost_some_iff.mp hj)

/-! ## One pass -/

/-- What is true of the recorded bodies throughout: they are bodies of their nonterminals, and their
    heights are at most those recorded with them. -/
def Recorded (t : RuleTable) (h : Heights) : Prop :=
  ∀ nt k b, h.lookup nt = some (k, b) → b ∈ t.bodies nt ∧ AtMost (bodyHeight? h b) k

theorem recorded_nil (t : RuleTable) : Recorded t [] := by
  intro nt k b hnone
  cases hnone

/-- The rule is used on the recorded heights. -/
def relaxRule (state : Heights × Bool) (rule : Symbol × Body) : Heights × Bool :=
  relaxBody rule.1 state rule.2

theorem relax_eq (h : Heights) (rules : RuleTable) :
    relax h rules = (rules.flatMap fun e => e.2.map fun b => (e.1, b)).foldl relaxRule (h, false) := by
  unfold relax
  rw [List.foldl_flatMap]
  congr 1
  funext state e
  rw [List.foldl_map]
  rfl

namespace Recorded

/-- A recorded body replaces what was recorded before; all other bodies stay, and get no higher. -/
theorem record (hr : Recorded t h) (hb : b ∈ t.bodies nt) (hn : bodyHeight? h b = some n)
    (himp : improves h nt n = true) : Recorded t (h.record nt n b) := by
  have hlow := lower_record himp b
  intro x k c hx
  rw [Heights.lookup_record] at hx
  by_cases hxn : x = nt
  · rw [if_pos hxn, Option.some.injEq, Prod.mk.injEq] at hx
    obtain ⟨rfl, rfl⟩ := hx
    exact ⟨hxn ▸ hb, hlow.bodyHeight ⟨n, Nat.le_refl n, hn⟩⟩
  · rw [if_neg hxn] at hx
    obtain ⟨hc, hheight⟩ := hr x k c hx
    exact ⟨hc, hlow.bodyHeight hheight⟩

/-- **One pass.** It keeps the bodies recorded, raises no height, brings the height of every head down to
    those its bodies had before the pass, and reports truly that it changed nothing. -/
theorem pass (hr : Recorded t h) {rules : List (Symbol × Body)}
    (hrules : ∀ r ∈ rules, r.2 ∈ t.bodies r.1) (improved : Bool) :
    Recorded t (rules.foldl relaxRule (h, improved)).1 ∧
    Lower (rules.foldl relaxRule (h, improved)).1 h ∧
    (∀ r ∈ rules, ∀ n, AtMost (bodyHeight? h r.2) n →
      AtMost ((rules.foldl relaxRule (h, improved)).1.height? r.1) n) ∧
    ((rules.foldl relaxRule (h, improved)).2 = false →
      improved = false ∧ (rules.foldl relaxRule (h, improved)).1 = h) := by
  induction rules generalizing h improved with
  | nil => exact ⟨hr, .refl h, fun r hm => absurd hm List.not_mem_nil, fun hfalse => ⟨hfalse, rfl⟩⟩
  | cons r rules ih =>
      obtain ⟨hbody, hrules⟩ := List.forall_mem_cons.mp hrules
      rw [List.foldl_cons]
      rcases relaxBody_cases r.1 (h, improved) r.2 with ⟨hstep, hold⟩ | ⟨n, hn, himp, hstep⟩
      · rw [show relaxRule (h, improved) r = (h, improved) from hstep]
        obtain ⟨hrec, hlow, hcover, hsame⟩ := ih hr hrules improved
        refine ⟨hrec, hlow, ?_, hsame⟩
        exact List.forall_mem_cons.mpr ⟨fun j hj => hlow _ j (hold j hj), hcover⟩
      · rw [show relaxRule (h, improved) r = (h.record r.1 n r.2, true) from hstep]
        have hstepLow := lower_record himp r.2
        obtain ⟨hrec, hlow, hcover, hsame⟩ := ih (hr.record hbody hn himp) hrules true
        refine ⟨hrec, hlow.trans hstepLow, ?_, fun hfalse => absurd (hsame hfalse).1 (by decide)⟩
        refine List.forall_mem_cons.mpr ⟨fun j hj => hlow _ j ?_, ?_⟩
        · unfold Heights.height?
          rw [Heights.lookup_record, if_pos rfl]
          rw [hn, atMost_some_iff] at hj
          exact atMost_some_iff.mpr hj
        · -- the rule comes later in the pass, when heights are only lower
          exact fun r' hr' j hj => hcover r' hr' j (hstepLow.bodyHeight hj)

end Recorded

/-- No body improves on what is recorded for its head. -/
def Settled (t : RuleTable) (h : Heights) : Prop :=
  ∀ nt, ∀ b ∈ t.bodies nt, ∀ n, AtMost (bodyHeight? h b) n → AtMost (h.height? nt) n

/-- A pass over settled heights improves nothing. -/
theorem Settled.pass_eq_self (hs : Settled t h) {rules : List (Symbol × Body)}
    (hrules : ∀ r ∈ rules, r.2 ∈ t.bodies r.1) : rules.foldl relaxRule (h, false) = (h, false) := by
  induction rules with
  | nil => rfl
  | cons r rules ih =>
      obtain ⟨hbody, hrules⟩ := List.forall_mem_cons.mp hrules
      rw [List.foldl_cons]
      rcases relaxBody_cases r.1 (h, false) r.2 with ⟨hstep, _⟩ | ⟨n, hn, himp, _⟩
      · rw [show relaxRule (h, false) r = (h, false) from hstep]
        exact ih hrules
      · have hold := hs r.1 r.2 hbody n ⟨n, Nat.le_refl n, hn⟩
        rw [improves_eq_false_iff.mpr hold] at himp
        cases himp

/-! ## Recorded heights and trees -/

namespace Recorded

/-- **Recorded bodies make trees.** By induction on the recorded height: the nonterminals of a recorded
    body have lower ones. -/
theorem exists_tree (hr : Recorded t h) (hk : h.lookup nt = some (k, b)) :
    ∃ T : Tree t nt, T.body = b ∧ T.Follows h.body? ∧ T.height ≤ k := by
  induction k using Nat.strongRecOn generalizing nt b with
  | ind k ih =>
      obtain ⟨hb, hheight⟩ := hr nt k b hk
      cases k with
      | zero => exact absurd hheight not_atMost_bodyHeight?_zero
      | succ k =>
          have htrees : ∀ x ∈ b, x.isLower = false →
              ∃ T : Tree t x, T.Follows h.body? ∧ T.height ≤ k := by
            intro x hx hlow
            obtain ⟨j, hj, hsome⟩ := bodyHeight?_atMost_iff.mp hheight x hx hlow
            obtain ⟨c, hc⟩ := Heights.height?_eq_some_iff.mp hsome
            obtain ⟨T, _, hfollow, hT⟩ := ih j (Nat.lt_succ_of_le hj) hc
            exact ⟨T, hfollow, Nat.le_trans hT hj⟩
          choose trees hfollow hle using htrees
          refine ⟨⟨b, hb, .build b trees⟩, rfl, ⟨?_, Forest.follows_build hfollow⟩, ?_⟩
          · exact Heights.body?_eq_some_iff.mpr ⟨k + 1, hk⟩
          · exact Nat.succ_le_succ (Forest.height_build hle)

theorem hasTree (hr : Recorded t h) (hn : AtMost (h.height? nt) n) : HasTree t n nt := by
  obtain ⟨k, hk, hsome⟩ := hn
  obtain ⟨b, hb⟩ := Heights.height?_eq_some_iff.mp hsome
  obtain ⟨T, _, _, hT⟩ := hr.exists_tree hb
  exact ⟨T, Nat.le_trans hT hk⟩

/-- Trees of recorded bodies below a body are not higher than its height says. -/
theorem forest_height_lt (hr : Recorded t h) (f : Forest t b) (hf : f.Follows h.body?)
    (hn : AtMost (bodyHeight? h b) n) : f.height < n := by
  induction f generalizing n with
  | nil =>
      apply Nat.pos_of_ne_zero
      rintro rfl
      exact not_atMost_bodyHeight?_zero hn
  | terminal hs rest ih =>
      cases n with
      | zero => exact absurd hn not_atMost_bodyHeight?_zero
      | succ n =>
          apply ih hf
          rw [bodyHeight?_atMost_iff] at hn ⊢
          exact (List.forall_mem_cons.mp hn).2
  | @nonterminal s c b hs hc below rest ihc ih =>
      obtain ⟨hchosen, hbelow, hrest⟩ := hf
      cases n with
      | zero => exact absurd hn not_atMost_bodyHeight?_zero
      | succ n =>
          obtain ⟨hsn, hbn⟩ := List.forall_mem_cons.mp (bodyHeight?_atMost_iff.mp hn)
          obtain ⟨k, hk⟩ := Heights.body?_eq_some_iff.mp hchosen
          have hkn : k ≤ n := by
            have hsome := hsn hs
            rw [Heights.height?_eq_some_iff.mpr ⟨c, hk⟩] at hsome
            exact atMost_some_iff.mp hsome
          have hlow : below.height < k := ihc hbelow (hr s k c hk).2
          have hright : rest.height < n + 1 := ih hrest (bodyHeight?_atMost_iff.mpr hbn)
          show max (below.height + 1) rest.height < n + 1
          omega

/-- A tree of recorded bodies is not higher than what is recorded for its root. -/
theorem height_le_of_follows (hr : Recorded t h) {T : Tree t nt} (hT : T.Follows h.body?)
    (hn : AtMost (h.height? nt) n) : T.height ≤ n := by
  obtain ⟨k, hk⟩ := Heights.body?_eq_some_iff.mp hT.1
  rw [Heights.height?_eq_some_iff.mpr ⟨T.body, hk⟩, atMost_some_iff] at hn
  exact Nat.le_trans (hr.forest_height_lt T.below hT.2 (hr nt k T.body hk).2) hn

end Recorded

namespace Settled

/-- The height of a body is at most that of any trees below it. -/
theorem atMost_bodyHeight (hs : Settled t h) (f : Forest t b) :
    AtMost (bodyHeight? h b) (f.height + 1) := by
  induction f with
  | nil => exact atMost_some_iff.mpr (Nat.le_refl 1)
  | terminal hlow rest ih =>
      rw [bodyHeight?_atMost_iff] at ih ⊢
      refine List.forall_mem_cons.mpr ⟨fun hnot => ?_, ih⟩
      rw [hlow] at hnot
      cases hnot
  | @nonterminal s c b hlow hc below rest ihc ih =>
      rw [bodyHeight?_atMost_iff] at ih ⊢
      refine List.forall_mem_cons.mpr ⟨fun _ => ?_, fun x hx hl => ?_⟩
      · exact (hs s c hc _ ihc).mono (Nat.le_max_left _ _)
      · exact (ih x hx hl).mono (Nat.le_max_right _ _)

/-- **Settled heights are at most those of any trees.** -/
theorem atMost_height (hs : Settled t h) (T : Tree t nt) : AtMost (h.height? nt) T.height :=
  hs nt T.body T.isBody _ (hs.atMost_bodyHeight T.below)

/-- A tree of recorded bodies is a lowest tree. -/
theorem isLowest_of_follows (hs : Settled t h) (hr : Recorded t h) {T : Tree t nt}
    (hT : T.Follows h.body?) : T.IsLowest :=
  fun T' => hr.height_le_of_follows hT (hs.atMost_height T')

/-- Recorded heights are least heights. -/
theorem isLeastHeight (hs : Settled t h) (hr : Recorded t h) (hk : h.lookup nt = some (k, b)) :
    IsLeastHeight t nt k := by
  obtain ⟨T, _, hfollow, hT⟩ := hr.exists_tree hk
  have hle := hs.atMost_height T
  rw [Heights.height?_eq_some_iff.mpr ⟨b, hk⟩, atMost_some_iff] at hle
  exact ⟨T, Nat.le_antisymm hT hle, hs.isLowest_of_follows hr hfollow⟩

end Settled

/-! ## All passes -/

/-- All heights up to `m` are recorded. -/
def Found (t : RuleTable) (m : Nat) (h : Heights) : Prop :=
  ∀ j ≤ m, ∀ nt, HasTree t j nt → AtMost (h.height? nt) j

theorem found_zero (t : RuleTable) (h : Heights) : Found t 0 h := by
  intro j hj nt hT
  obtain ⟨T, hT⟩ := hT
  exact absurd (Nat.le_trans hT hj) (Nat.not_succ_le_zero _)

/-- A pass finds the trees of the next height. -/
theorem Found.pass (hf : Found t m h)
    (hcover : ∀ nt, ∀ b ∈ t.bodies nt, ∀ n, AtMost (bodyHeight? h b) n → AtMost (h'.height? nt) n) :
    Found t (m + 1) h' := by
  intro j hj nt hT
  cases j with
  | zero => exact found_zero t h' 0 (Nat.le_refl 0) nt hT
  | succ j =>
      obtain ⟨c, hc, hall⟩ := hasTree_succ_iff.mp hT
      apply hcover nt c hc
      apply bodyHeight?_atMost_iff.mpr
      exact fun x hx hlow => hf j (Nat.le_of_succ_le_succ hj) x (hall x hx hlow)

/-- Once the heights up to the number of heads are found, no body improves on them. -/
theorem Found.settled (hf : Found t t.heads.length h) (hr : Recorded t h) : Settled t h := by
  intro nt b hb n hn
  cases n with
  | zero => exact absurd hn not_atMost_bodyHeight?_zero
  | succ n =>
      have hT : HasTree t (n + 1) nt := by
        refine hasTree_succ_iff.mpr ⟨b, hb, fun x hx hlow => ?_⟩
        exact hr.hasTree (bodyHeight?_atMost_iff.mp hn x hx hlow)
      by_cases hle : n + 1 ≤ t.heads.length
      · exact hf (n + 1) hle nt hT
      · exact (hf _ (Nat.le_refl _) nt hT.bounded).mono (by omega)

/-- Passes from the `k`-th on, with no limit on their number, lead from `h` to `h'`: the last pass
    improves nothing, and all before it improve something. -/
inductive Settles (walk : Nat → RuleTable) : Nat → Heights → Heights → Prop
  | stop {k : Nat} {h h' : Heights} (hpass : relax h (walk k) = (h', false)) : Settles walk k h h'
  | again {k : Nat} {h h' h'' : Heights} (hpass : relax h (walk k) = (h', true))
      (hrest : Settles walk (k + 1) h' h'') : Settles walk k h h''

/-- **The passes come to an end.** Each of them finds the trees of one more height, so a pass for each
    head and one more are enough. -/
theorem settles_relaxUntilStable (walk : Nat → RuleTable)
    (hwalk : ∀ k r, r ∈ ((walk k).flatMap fun e => e.2.map fun b => (e.1, b)) ↔ r.2 ∈ t.bodies r.1)
    (passes : Nat) (k : Nat) (hr : Recorded t h) (hf : Found t m h) (hm : m ≤ t.heads.length)
    (hpasses : t.heads.length < m + passes) :
    Settles walk k h (relaxUntilStable walk passes k h) ∧
      Recorded t (relaxUntilStable walk passes k h) ∧
      Settled t (relaxUntilStable walk passes k h) := by
  induction passes generalizing h m k with
  | zero => exact absurd (Nat.lt_of_lt_of_le hpasses hm) (Nat.lt_irrefl _)
  | succ passes ih =>
      have hrules := fun r hmem => (hwalk k r).mp hmem
      obtain ⟨hrec, _, hcover, hsame⟩ := hr.pass hrules false
      rw [← relax_eq] at hrec hcover hsame
      have hcover : ∀ nt, ∀ b ∈ t.bodies nt, ∀ n, AtMost (bodyHeight? h b) n →
          AtMost ((relax h (walk k)).1.height? nt) n :=
        fun nt b hb => hcover (nt, b) ((hwalk k (nt, b)).mpr hb)
      unfold relaxUntilStable
      rcases hpass : relax h (walk k) with ⟨h', _ | _⟩
      · rw [hpass] at hrec hcover hsame
        have hh : h' = h := (hsame rfl).2
        refine ⟨.stop hpass, hrec, ?_⟩
        rw [hh] at hcover ⊢
        exact hcover
      · rw [hpass] at hrec hcover
        -- had all heights been found before, the pass would not have improved anything
        have hlt : m < t.heads.length := by
          apply Nat.lt_of_le_of_ne hm
          rintro rfl
          have hnone := (hf.settled hr).pass_eq_self hrules
          rw [← relax_eq, hpass] at hnone
          exact Bool.noConfusion (congrArg Prod.snd hnone)
        obtain ⟨hsettles, hrest⟩ := ih (k + 1) hrec (hf.pass hcover) hlt (by omega)
        exact ⟨.again hpass hsettles, hrest⟩

/-! ## The shortest bodies of a grammar -/

section Grammar

variable {g : Grammar} {walk : Nat → RuleTable} (hwalk : ∀ k, (walk k).Perm g.entries)
include hwalk

/-- Whatever the order of the walks, the passes end with settled heights. -/
theorem settles_shortest :
    Settles walk 0 [] (shortest g.nonterminals.length walk) ∧
      Recorded g.entries (shortest g.nonterminals.length walk) ∧
      Settled g.entries (shortest g.nonterminals.length walk) := by
  have hheads := Parts.heads_entries g.wellFormed.count
  apply settles_relaxUntilStable walk _ _ 0 (recorded_nil _) (found_zero _ _) (Nat.zero_le _)
  · rw [hheads]
    omega
  · intro k r
    rw [← mem_rules (heads_entries_nodup g)]
    exact ((hwalk k).flatMap_right _).mem_iff

/-- Every nonterminal has a recorded body. -/
theorem exists_lookup_shortest (hnt : nt ∈ g.nonterminals) :
    ∃ k b, (shortest g.nonterminals.length walk).lookup nt = some (k, b) := by
  obtain ⟨w, hw⟩ := g.generating hnt
  obtain ⟨T, _⟩ := hw.exists_tree (g.wellFormed.nonterminal_not_lower hnt)
  obtain ⟨k, _, hk⟩ := (settles_shortest hwalk).2.2.atMost_height T
  obtain ⟨b, hb⟩ := Heights.height?_eq_some_iff.mp hk
  exact ⟨k, b, hb⟩

end Grammar

/-- **Shortest bodies have lowest trees.** In whatever order each pass walks the rules, the passes come
    to an end. Then every nonterminal has a recorded body, which is at the root of a tree as low as any
    of its trees; expanding all nonterminals by their recorded bodies gives a tree, and a lowest one. -/
theorem shortest_bodies_have_lowest_trees (g : Grammar) (walk : Nat → RuleTable)
    (hwalk : ∀ k, (walk k).Perm g.entries) :
    Settles walk 0 [] (shortest g.nonterminals.length walk) ∧
    ∀ nt ∈ g.nonterminals,
      (∃ T : Tree g.entries nt,
        (shortest g.nonterminals.length walk).body? nt = some T.body ∧ T.IsLowest) ∧
      (∃ T : Tree g.entries nt, T.Follows (shortest g.nonterminals.length walk).body?) ∧
      ∀ T : Tree g.entries nt, T.Follows (shortest g.nonterminals.length walk).body? → T.IsLowest := by
  obtain ⟨hsettles, hrec, hset⟩ := settles_shortest hwalk
  refine ⟨hsettles, fun nt hnt => ?_⟩
  obtain ⟨k, b, hk⟩ := exists_lookup_shortest hwalk hnt
  obtain ⟨T, _, hfollow, _⟩ := hrec.exists_tree hk
  refine ⟨⟨T, hfollow.1, hset.isLowest_of_follows hrec hfollow⟩, ⟨T, hfollow⟩, fun T' hT' => ?_⟩
  exact hset.isLowest_of_follows hrec hT'

/-- A grammar in which the first body that is found for a nonterminal need not be its shortest. -/
def detourParts : Parts where
  terminals := Body.ofText "bc"
  nonterminals := Body.ofText "SABC"
  productions := [[Body.ofText "AB", Body.ofText "CC"], [Body.ofText "B"],
    [Body.ofText "C", Body.ofText "b"], [Body.ofText "cS", Body.ofText "c"]]

def detours : Grammar := ⟨detourParts, false, by decide⟩

/-- Walks of its rules, backwards and forwards in turn. -/
def detourWalk (k : Nat) : RuleTable := if k % 2 = 0 then detours.entries.reverse else detours.entries

theorem shortest_bodies_have_lowest_trees_detours :
    ∃ T : Tree detours.entries (Symbol.ofChar 'S'),
      (shortest detours.nonterminals.length detourWalk).body? (Symbol.ofChar 'S') = some T.body ∧
        T.IsLowest := by
  have hwalk : ∀ k, (detourWalk k).Perm detours.entries := by
    intro k
    unfold detourWalk
    split
    · exact List.reverse_perm _
    · exact .refl _
  exact ((shortest_bodies_have_lowest_trees detours detourWalk hwalk).2 _ (by decide)).1

end LetterGrammar
