import LetterGrammar.Language.Sampling
import LetterGrammar.Proofs.Language.Choice
import LetterGrammar.Proofs.Language.Shortest
import Mathlib.Algebra.Order.Ring.Int
import Mathlib.Order.Lattice.Nat

/-!
# The words that sampling derives

A sampled derivation is a tree. Down to the given depth its bodies are chosen, and each level above the
depth costs one level of the tree; from there on its bodies are the recorded ones, whose trees are the
lowest. So sampling ends, whatever is chosen. In the other direction the choices can be read off any tree
that is not higher than the depth, in the order in which the sampler asks for them.

## Contents

- **`Sampler.extend`**, **`derive_of_pick`**: one symbol of a body, and one node of a tree.
- **`Sampler.Yields`**, **`Sampler.yields_below`**, **`Sampler.Ready.yields`**: what is derived from any
  state, below the depth and from above it.
- **`Forest.numbers`**, **`Tree.numbers`**: the numbers that make the choices of a tree.
- **`Sampler.Replays.foldlM_forest`**, **`Sampler.Replays.derive_tree`**: the sampler derives the word of
  the tree that its numbers come from.
-/

namespace LetterGrammar

open RuleTable

namespace Sampler

variable {σ : Type} {m : Sampler σ} {t : RuleTable} {nt : Symbol} {b : Body} {levels depth k n : Nat}

/-! ## One node -/

/-- The word so far, with a terminal or a word of a nonterminal added. -/
def extend (m : Sampler σ) (levels depth : Nat) (state : Word × σ) (x : Symbol) : Option (Word × σ) :=
  if x.isLower then some (state.1 ++ [x], state.2)
  else (m.derive levels (depth + 1) x state.2).map fun r => (state.1 ++ r.1, r.2)

theorem extend_terminal {x : Symbol} (hx : x.isLower = true) (u : Word) (s : σ) :
    m.extend levels depth (u, s) x = some (u ++ [x], s) := if_pos hx

theorem extend_nonterminal {x : Symbol} (hx : x.isLower = false) {w : Word} {s s' : σ}
    (h : m.derive levels (depth + 1) x s = some (w, s')) (u : Word) :
    m.extend levels depth (u, s) x = some (u ++ w, s') := by
  unfold extend
  rw [if_neg (Bool.eq_false_iff.mp hx), h]
  rfl

/-- **One node**: the picked body is gone through from left to right. -/
theorem derive_of_pick {s s' : σ} (h : m.pick nt depth s = some (b, s')) :
    m.derive (levels + 1) depth nt s = b.foldlM (m.extend levels depth) ([], s') := by
  unfold derive
  rw [h]
  rfl

theorem pick_above (hdepth : (depth : Int) < m.maxDepth) {s s' : σ} {i : Nat}
    (hchoose : m.choose s (m.rules.bodies nt).length = some (i, s'))
    (hi : (m.rules.bodies nt)[i]? = some b) : m.pick nt depth s = some (b, s') := by
  unfold pick
  rw [if_pos hdepth, hchoose]
  dsimp only
  rw [hi]
  rfl

theorem pick_below (hdepth : m.maxDepth ≤ depth) (hb : m.heights.body? nt = some b) (s : σ) :
    m.pick nt depth s = some (b, s) := by
  unfold pick
  rw [if_neg (Int.not_lt.mpr hdepth), hb]
  rfl

/-! ## Sampling ends -/

/-- From any state, the sampler derives the word of a tree of at most the given height. -/
def Yields (m : Sampler σ) (t : RuleTable) (n levels depth : Nat) (nt : Symbol) : Prop :=
  ∀ s, ∃ T : Tree t nt, T.height ≤ n ∧ ∃ s', m.derive levels depth nt s = some (T.word, s')

/-- Going through a body puts the trees of its nonterminals together. -/
theorem exists_forest_foldlM
    (h : ∀ x ∈ b, x.isLower = false → m.Yields t n levels (depth + 1) x) (u : Word) (s : σ) :
    ∃ f : Forest t b, f.height ≤ n ∧
      ∃ s', b.foldlM (m.extend levels depth) (u, s) = some (u ++ f.word, s') := by
  induction b generalizing u s with
  | nil =>
      refine ⟨.nil, Nat.zero_le n, s, ?_⟩
      rw [List.foldlM_nil, Forest.word, List.append_nil]
      rfl
  | cons x b ih =>
      obtain ⟨hx, hb⟩ := List.forall_mem_cons.mp h
      rw [List.foldlM_cons]
      cases hlow : x.isLower with
      | true =>
          obtain ⟨rest, hrest, s', hrun⟩ := ih hb (u ++ [x]) s
          refine ⟨.terminal hlow rest, hrest, s', ?_⟩
          rw [extend_terminal hlow, Option.bind_eq_bind, Option.bind_some, hrun, List.append_assoc]
          rfl
      | false =>
          obtain ⟨T, hT, s₁, hderive⟩ := hx hlow s
          obtain ⟨rest, hrest, s', hrun⟩ := ih hb (u ++ T.word) s₁
          refine ⟨.nonterminal hlow T.isBody T.below rest, Nat.max_le.mpr ⟨hT, hrest⟩, s', ?_⟩
          rw [extend_nonterminal hlow hderive, Option.bind_eq_bind, Option.bind_some, hrun,
            List.append_assoc]
          rfl

/-- **One level**: a node on top of what its body's nonterminals yield. -/
theorem yields_succ
    (hpick : ∀ s, ∃ b ∈ t.bodies nt, (∃ s', m.pick nt depth s = some (b, s')) ∧
      ∀ x ∈ b, x.isLower = false → m.Yields t n levels (depth + 1) x) :
    m.Yields t (n + 1) (levels + 1) depth nt := by
  intro s
  obtain ⟨b, hb, ⟨s₁, hp⟩, hall⟩ := hpick s
  obtain ⟨f, hf, s', hrun⟩ := exists_forest_foldlM hall [] s₁
  refine ⟨⟨b, hb, f⟩, Nat.succ_le_succ hf, s', ?_⟩
  rw [derive_of_pick hp, hrun]
  rfl

/-- From the depth on, the recorded bodies lead to a tree of the recorded height. -/
theorem yields_below (hr : Recorded t m.heights) (hdepth : m.maxDepth ≤ depth)
    (hk : AtMost (m.heights.height? nt) k) (hlevels : k ≤ levels) :
    m.Yields t k levels depth nt := by
  induction k generalizing nt levels depth with
  | zero =>
      obtain ⟨T, hT⟩ := hr.hasTree hk
      exact absurd hT (Nat.not_succ_le_zero _)
  | succ k ih =>
      obtain ⟨j, hj, hsome⟩ := hk
      obtain ⟨b, hb⟩ := Heights.height?_eq_some_iff.mp hsome
      obtain ⟨hbody, hheight⟩ := hr nt j b hb
      obtain ⟨levels, rfl⟩ : ∃ l, levels = l + 1 := ⟨levels - 1, by omega⟩
      apply yields_succ
      intro s
      refine ⟨b, hbody, ⟨s, pick_below hdepth (Heights.body?_eq_some_iff.mpr ⟨j, hb⟩) s⟩, ?_⟩
      intro x hx hlow
      apply ih (by omega) _ (Nat.le_of_succ_le_succ hlevels)
      exact bodyHeight?_atMost_iff.mp (hheight.mono hj) x hx hlow

/-- A sampler whose choices are below their bounds, on nonterminals that have bodies of their own and
    recorded heights of at most `n`. -/
structure Ready (m : Sampler σ) (nts : List Symbol) (n : Nat) : Prop where
  choose : ∀ s bound, 0 < bound → ∃ i < bound, ∃ s', m.choose s bound = some (i, s')
  nonempty : ∀ nt ∈ nts, m.rules.bodies nt ≠ []
  closed : ∀ nt ∈ nts, ∀ b ∈ m.rules.bodies nt, ∀ x ∈ b, x.isLower = false → x ∈ nts
  recorded : Recorded m.rules m.heights
  height : ∀ nt ∈ nts, AtMost (m.heights.height? nt) n

/-- **Every level above the depth costs one level of the tree**, on top of the recorded heights. -/
theorem Ready.yields {nts : List Symbol} (hm : m.Ready nts n) (levels depth : Nat) (hnt : nt ∈ nts)
    (hlevels : (m.maxDepth.toNat - depth) + n ≤ levels) :
    m.Yields m.rules ((m.maxDepth.toNat - depth) + n) levels depth nt := by
  -- on the number of levels that are left above the depth
  induction habove : m.maxDepth.toNat - depth generalizing nt levels depth with
  | zero =>
      rw [habove] at hlevels
      rw [Nat.zero_add] at hlevels ⊢
      exact yields_below hm.recorded (by omega) (hm.height nt hnt) hlevels
  | succ above ih =>
      obtain ⟨levels, rfl⟩ : ∃ l, levels = l + 1 := ⟨levels - 1, by omega⟩
      rw [Nat.succ_add]
      apply yields_succ
      intro s
      have hpos : 0 < (m.rules.bodies nt).length := List.length_pos_iff.mpr (hm.nonempty nt hnt)
      obtain ⟨i, hi, s', hchoose⟩ := hm.choose s _ hpos
      have hbody := List.getElem_mem hi
      refine ⟨_, hbody, ⟨s', ?_⟩, fun x hx hlow => ?_⟩
      · exact pick_above (by omega) hchoose (List.getElem?_eq_getElem hi)
      · exact ih levels (depth + 1) (hm.closed nt hnt _ hbody x hx hlow) (by omega) (by omega)

end Sampler

/-- The least heights of the nonterminals of a grammar. -/
def leastHeights (g : Grammar) : Set Nat :=
  {n | ∃ nt ∈ g.nonterminals, IsLeastHeight g.entries nt n}

section Grammar

variable {σ : Type} {g : Grammar} {walk : Nat → RuleTable} {choose : σ → Nat → Option (Nat × σ)}
  {H : Nat}

theorem leastHeights_le {n : Nat} (hn : n ∈ leastHeights g) : n ≤ g.nonterminals.length := by
  obtain ⟨nt, _, T, rfl, hT⟩ := hn
  have hlow : HasTree g.entries T.height nt := ⟨T, Nat.le_refl _⟩
  obtain ⟨T', hT'⟩ := hlow.bounded
  rw [Parts.heads_entries g.wellFormed.count] at hT'
  exact Nat.le_trans (hT T') hT'

/-- The height recorded for a nonterminal is its least one. -/
theorem exists_recorded_height (hwalk : ∀ k, (walk k).Perm g.entries) {nt : Symbol}
    (hnt : nt ∈ g.nonterminals) :
    ∃ k ∈ leastHeights g, (shortest g.nonterminals.length walk).height? nt = some k := by
  obtain ⟨k, b, hk⟩ := exists_lookup_shortest hwalk hnt
  obtain ⟨_, hrec, hset⟩ := settles_shortest hwalk
  exact ⟨k, ⟨nt, hnt, hset.isLeastHeight hrec hk⟩, Heights.height?_eq_some_iff.mpr ⟨b, hk⟩⟩

/-- The sampler of a grammar is ready for its nonterminals. -/
theorem ready_sampler (hwalk : ∀ k, (walk k).Perm g.entries)
    (hchoose : ∀ s bound, 0 < bound → ∃ i < bound, ∃ s', choose s bound = some (i, s'))
    (hH : IsGreatest (leastHeights g) H) (maxDepth : Int) :
    Sampler.Ready ⟨g.entries, shortest g.nonterminals.length walk, maxDepth, choose⟩
      g.nonterminals H where
  choose := hchoose
  nonempty := by
    intro nt hnt
    obtain ⟨w, hw⟩ := g.generating hnt
    obtain ⟨T, _⟩ := hw.exists_tree (g.wellFormed.nonterminal_not_lower hnt)
    exact List.ne_nil_of_mem T.isBody
  closed := by
    intro nt _ b hb x hx hlow
    apply (g.wellFormed.body_symbol hb hx).resolve_left
    intro hterm
    rw [g.wellFormed.terminals_lower x hterm] at hlow
    cases hlow
  recorded := (settles_shortest hwalk).2.1
  height := by
    intro nt hnt
    obtain ⟨k, hleast, hk⟩ := exists_recorded_height hwalk hnt
    exact ⟨k, hH.2 hleast, hk⟩

end Grammar

/-- **Sampling always ends with a word of the language.** Whatever is chosen, and in whatever order the
    rules are walked, the search for shortest bodies ends, no body is missing, and the word has a
    derivation tree that is at most as high as the depth and the greatest least height together. -/
theorem sampleAlong?_ends_in_word {σ : Type} (g : Grammar) (hg : g.nonterminals ≠ [])
    (walk : Nat → RuleTable) (hwalk : ∀ k, (walk k).Perm g.entries)
    (choose : σ → Nat → Option (Nat × σ))
    (hchoose : ∀ s bound, 0 < bound → ∃ i < bound, ∃ s', choose s bound = some (i, s'))
    (maxDepth : Int) (s : σ) :
    Settles walk 0 [] (shortest g.nonterminals.length walk) ∧
    ∃ start H, g.start? = some start ∧ IsGreatest (leastHeights g) H ∧
      ∃ (T : Tree g.entries start) (s' : σ),
        sampleAlong? g walk choose maxDepth s = some (T.word, s') ∧
        (T.height : Int) ≤ max maxDepth 0 + H ∧
        Derives g.entries [start] T.word ∧ ∀ x ∈ T.word, x.isLower = true := by
  obtain ⟨start, nts, hnts⟩ := List.exists_cons_of_ne_nil hg
  have hstart : g.start? = some start := by
    unfold Parts.start?
    rw [hnts]
    rfl
  have hmem : start ∈ g.nonterminals := List.mem_of_mem_head? hstart
  -- the greatest least height exists, since the least heights are bounded
  have hbdd : BddAbove (leastHeights g) := ⟨_, fun n hn => leastHeights_le hn⟩
  obtain ⟨k, hk, _⟩ := exists_recorded_height hwalk hmem
  have hsup : sSup (leastHeights g) ∈ leastHeights g := Nat.sSup_mem ⟨k, hk⟩ hbdd
  have hH : IsGreatest (leastHeights g) (sSup (leastHeights g)) := ⟨hsup, fun n hn => le_csSup hbdd hn⟩
  have hlevels : (maxDepth.toNat - 0) + sSup (leastHeights g) ≤ sampleLevels g maxDepth := by
    have hle := leastHeights_le hsup
    unfold sampleLevels
    omega
  obtain ⟨T, hT, s', hrun⟩ := (ready_sampler hwalk hchoose hH maxDepth).yields _ 0 hmem hlevels s
  have hderives := T.derives (g.wellFormed.nonterminal_not_lower hmem)
  refine ⟨(settles_shortest hwalk).1, start, _, hstart, hH, T, s', ?_, ?_, hderives,
    hderives.all_isLower⟩
  · unfold sampleAlong?
    rw [hstart]
    exact hrun
  · dsimp only at hT
    omega

/-- Choices that count upwards, each reduced below its bound. -/
def countingChoice (count bound : Nat) : Option (Nat × Nat) := some (count % bound, count + 1)

theorem sampleAlong?_ends_in_word_brackets :
    ∃ w s', sampleAlong? brackets (fun _ => brackets.entries) countingChoice 3 0 = some (w, s') ∧
      Derives brackets.entries [Symbol.ofChar 'S'] w := by
  obtain ⟨_, start, _, hstart, _, T, s', hrun, _, hderives, _⟩ :=
    sampleAlong?_ends_in_word brackets (by decide) (fun _ => brackets.entries) (fun _ => .refl _)
      countingChoice (fun count bound hbound => ⟨_, Nat.mod_lt count hbound, _, rfl⟩) 3 0
  have hS : brackets.start? = some (Symbol.ofChar 'S') := by decide
  rw [hS] at hstart
  injection hstart with hstart
  exact ⟨T.word, s', hrun, hstart ▸ hderives⟩

/-! ## Sampling reaches every word -/

namespace RuleTable

variable {t : RuleTable} {s : Symbol} {b : Body}

/-- A number that makes the choice of a body. -/
def bodyNumber (t : RuleTable) (s : Symbol) (c : Body) : Int :=
  Source.number (t.bodies s).length ((t.bodies s).idxOf c)

/-- The numbers that make the choices of the trees: first that of the root, then those below it. -/
def Forest.numbers : {b : Body} → Forest t b → List Int
  | _, .nil => []
  | _, .terminal _ rest => rest.numbers
  | _, .nonterminal (s := s) (c := c) _ _ below rest =>
    t.bodyNumber s c :: (below.numbers ++ rest.numbers)

def Tree.numbers (T : Tree t s) : List Int := t.bodyNumber s T.body :: T.below.numbers

theorem bodyNumber_range (hsize : ∀ x, (t.bodies x).length < 2 ^ 63) {c : Body} (hc : c ∈ t.bodies s) :
    0 ≤ t.bodyNumber s c ∧ t.bodyNumber s c < 2 ^ 63 :=
  Source.number_range (List.idxOf_lt_length_iff.mpr hc) (hsize s)

theorem Forest.numbers_range (hsize : ∀ x, (t.bodies x).length < 2 ^ 63) (f : Forest t b) :
    ∀ v ∈ f.numbers, 0 ≤ v ∧ v < 2 ^ 63 := by
  induction f with
  | nil => exact fun v hv => absurd hv List.not_mem_nil
  | terminal _ rest ih => exact ih
  | nonterminal _ hc below rest ihc ih =>
      exact List.forall_mem_cons.mpr ⟨bodyNumber_range hsize hc, List.forall_mem_append.mpr ⟨ihc, ih⟩⟩

theorem Tree.numbers_range (hsize : ∀ x, (t.bodies x).length < 2 ^ 63) (T : Tree t s) :
    ∀ v ∈ T.numbers, 0 ≤ v ∧ v < 2 ^ 63 :=
  List.forall_mem_cons.mpr ⟨bodyNumber_range hsize T.isBody, T.below.numbers_range hsize⟩

end RuleTable

namespace Sampler

variable {m : Sampler Source} {nt : Symbol} {b : Body} {levels depth : Nat} {s : Source}

/-- A sampler that is driven by a source of numbers, on lists of bodies that 63 bits can count. -/
structure Replays (m : Sampler Source) : Prop where
  choose : m.choose = Source.below?
  size : ∀ x, (m.rules.bodies x).length < 2 ^ 63

namespace Replays

/-- The number of a body makes the sampler pick it. -/
theorem pick_tree (hm : m.Replays) (T : Tree m.rules nt) (hdepth : (depth : Int) < m.maxDepth)
    (hs : s.Ahead T.numbers) : m.pick nt depth s = some (T.body, s.skip 1) := by
  have hi : (m.rules.bodies nt).idxOf T.body < (m.rules.bodies nt).length :=
    List.idxOf_lt_length_iff.mpr T.isBody
  apply pick_above hdepth
  · rw [hm.choose]
    exact Source.below?_of_ahead hs hi (hm.size nt)
  · rw [List.getElem?_eq_getElem hi, List.getElem_idxOf hi]

/-- One node: the root takes the first number, and what is below it the others. -/
theorem derive_root (hm : m.Replays) (T : Tree m.rules nt) (hdepth : (depth : Int) < m.maxDepth)
    (hs : s.Ahead T.numbers)
    (hbelow : (s.skip 1).Ahead T.below.numbers → T.body.foldlM (m.extend levels depth) ([], s.skip 1)
      = some (T.word, (s.skip 1).skip T.below.numbers.length)) :
    m.derive (levels + 1) depth nt s = some (T.word, s.skip T.numbers.length) := by
  have hsplit : T.numbers = [m.rules.bodyNumber nt T.body] ++ T.below.numbers := rfl
  rw [derive_of_pick (hm.pick_tree T hdepth hs), hbelow (Source.Ahead.right (hsplit ▸ hs)),
    Source.skip_skip, hsplit, List.length_append, List.length_singleton]

/-- **The trees below a body.** By induction on them, the sampler draws their numbers in order. -/
theorem foldlM_forest (hm : m.Replays) (f : Forest m.rules b) (hlevels : f.height ≤ levels)
    (hdepth : (depth : Int) + f.height < m.maxDepth) (u : Word) (hs : s.Ahead f.numbers) :
    b.foldlM (m.extend levels depth) (u, s) = some (u ++ f.word, s.skip f.numbers.length) := by
  induction f generalizing levels depth u s with
  | nil =>
      rw [List.foldlM_nil, Forest.word, List.append_nil]
      rfl
  | terminal hlow rest ih =>
      rw [List.foldlM_cons, extend_terminal hlow, Option.bind_eq_bind, Option.bind_some,
        ih hlevels hdepth _ hs, List.append_assoc]
      rfl
  | @nonterminal x c b hlow hc below rest ihc ih =>
      have hheight : (Forest.nonterminal hlow hc below rest).height
          = max (below.height + 1) rest.height := rfl
      rw [hheight] at hlevels hdepth
      obtain ⟨levels, rfl⟩ : ∃ l, levels = l + 1 := ⟨levels - 1, by omega⟩
      -- the numbers of the first tree, then those of the others
      let T : Tree m.rules x := ⟨c, hc, below⟩
      have hs : s.Ahead (T.numbers ++ rest.numbers) := hs
      have hroot : m.derive (levels + 1) (depth + 1) x s = some (T.word, s.skip T.numbers.length) := by
        apply hm.derive_root T (by omega) hs.left
        exact fun hb => ihc (by omega) (by omega) [] hb
      rw [List.foldlM_cons, extend_nonterminal hlow hroot, Option.bind_eq_bind, Option.bind_some,
        ih (by omega) (by omega) _ hs.right, List.append_assoc, Source.skip_skip,
        ← List.length_append]
      rfl

/-- **The sampler derives the word of the tree that its numbers come from.** -/
theorem derive_tree (hm : m.Replays) (T : Tree m.rules nt) (hlevels : T.height ≤ levels)
    (hdepth : (depth : Int) + T.height ≤ m.maxDepth) (hs : s.Ahead T.numbers) :
    m.derive levels depth nt s = some (T.word, s.skip T.numbers.length) := by
  have hheight : T.height = T.below.height + 1 := rfl
  obtain ⟨levels, rfl⟩ : ∃ l, levels = l + 1 := ⟨levels - 1, by omega⟩
  apply hm.derive_root T (by omega) hs
  exact fun hb => hm.foldlM_forest T.below (by omega) (by omega) [] hb

end Replays
end Sampler

/-- The bodies of a nonterminal are as many as one of the production sets has. -/
theorem length_bodies_lt {g : Grammar} (hsize : ∀ bodies ∈ g.productions, bodies.length < 2 ^ 63)
    (x : Symbol) : (RuleTable.bodies g.entries x).length < 2 ^ 63 := by
  by_cases hx : x ∈ heads g.entries
  · rw [Parts.heads_entries g.wellFormed.count] at hx
    obtain ⟨i, hi⟩ := List.getElem?_of_mem hx
    obtain ⟨bodies, hbodies⟩ := g.wellFormed.exists_set hi
    rw [g.wellFormed.bodies_eq hi hbodies]
    exact hsize bodies (List.mem_of_getElem? hbodies)
  · rw [bodies_eq_nil hx]
    decide

/-- **Sampling can produce every word.** For a word with a derivation tree that is not higher than the
    depth there are numbers of 63 bits that make sampling return it, in whatever order the rules are
    walked. Each of them is drawn once. The length of a list of bodies is a number that the choice is
    made below, so it is taken to fit into 63 bits. -/
theorem sampleAlong?_reaches_word (g : Grammar)
    (hsize : ∀ bodies ∈ g.productions, bodies.length < 2 ^ 63) (maxDepth : Int) (start : Symbol)
    (hstart : g.start? = some start) (w : Word)
    (hw : ∃ T : Tree g.entries start, T.word = w ∧ (T.height : Int) ≤ maxDepth) :
    ∃ numbers : List Int, (∀ v ∈ numbers, 0 ≤ v ∧ v < 2 ^ 63) ∧
      ∀ walk, sampleAlong? g walk Source.below? maxDepth (.start numbers)
        = some (w, ⟨numbers, numbers.length⟩) := by
  obtain ⟨T, rfl, hT⟩ := hw
  have hsize := length_bodies_lt hsize
  refine ⟨T.numbers, T.numbers_range hsize, fun walk => ?_⟩
  let m : Sampler Source :=
    ⟨g.entries, shortest g.nonterminals.length walk, maxDepth, Source.below?⟩
  have hm : m.Replays := ⟨rfl, hsize⟩
  have hlevels : T.height ≤ sampleLevels g maxDepth := by
    unfold sampleLevels
    omega
  have hdepth : ((0 : Nat) : Int) + T.height ≤ m.maxDepth := by
    rw [Int.natCast_zero, Int.zero_add]
    exact hT
  have hrun := hm.derive_tree T hlevels hdepth (Source.ahead_start T.numbers)
  unfold sampleAlong?
  rw [hstart]
  dsimp only
  rw [hrun]
  unfold Source.skip Source.start
  rw [Nat.zero_add]

/-- A tree of two pairs of brackets side by side. -/
def twoPairs : Tree brackets.entries (Symbol.ofChar 'S') :=
  let S := Symbol.ofChar 'S'
  let pair : Forest brackets.entries [Symbol.ofChar 'a', S, Symbol.ofChar 'b'] :=
    .terminal rfl (.nonterminal rfl (show ([] : Body) ∈ _ by decide) .nil (.terminal rfl .nil))
  ⟨[S, S], by decide, .nonterminal rfl (by decide) pair (.nonterminal rfl (by decide) pair .nil)⟩

theorem sampleAlong?_reaches_word_twoPairs :
    ∃ numbers : List Int, sample? brackets 3 (.start numbers)
      = some (Body.ofText "abab", ⟨numbers, numbers.length⟩) := by
  obtain ⟨numbers, _, hrun⟩ := sampleAlong?_reaches_word brackets (by decide) 3 (Symbol.ofChar 'S')
    (by decide) (Body.ofText "abab") ⟨twoPairs, by decide, by decide⟩
  exact ⟨numbers, hrun _⟩

end LetterGrammar
