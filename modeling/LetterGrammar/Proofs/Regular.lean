import Mathlib.Computability.NFA
import Mathlib.Data.Fintype.Option
import LetterGrammar.Grammar.Classification
import LetterGrammar.Proofs.Greibach.Language

/-!
# Regular grammars have regular languages

A regular grammar is right-linear, or it is left-linear and its mirror image is right-linear. In a
right-linear table a derivation always has one nonterminal left to rewrite, at the end of the word, or
none: that is the state of a finite automaton, which reads the word as the derivation writes it.

## Contents

- **`Parts.covers_linearity_iff`**: the orientation of a grammar is that of the bodies it has.
- **`RuleTable.RightLinear`**: every body is a terminal and then a nonterminal, each of them optional
  except that the nonterminal needs the terminal.
- **`RuleTable.automaton`**: the automaton of a table; **`RightLinear.mem_acceptsFrom_iff`**: what it
  accepts from a state is what is derived from it.
- **`RuleTable.mirror`**, **`derives_mirror_iff`**: a table with its bodies turned around.
- **`Parts.rightLinear_or_mirror`**: what the classification of a grammar as regular means.
- **`regular_grammar_accepted`**: the words of a regular grammar are those of a finite automaton.
-/

namespace LetterGrammar

/-! ## Orientation -/

namespace Linearity

/-- The orientation adds nothing to the other. -/
def Covers (l o : Linearity) : Prop := l.join o = l

instance (l o : Linearity) : Decidable (Covers l o) := inferInstanceAs (Decidable (_ = _))

/-- An orientation that single bodies have. -/
def IsSingle (o : Linearity) : Prop := o = .right ∨ o = .left

theorem covers_join_iff {o : Linearity} (ho : o.IsSingle) (l m : Linearity) :
    (l.join m).Covers o ↔ l.Covers o ∨ m.Covers o := by
  rcases ho with rfl | rfl <;> cases l <;> cases m <;> decide

theorem eq_mixed_iff {l : Linearity} : l = .mixed ↔ l.Covers .right ∧ l.Covers .left := by
  cases l <;> decide

end Linearity

namespace Parts

variable {p : Parts}

/-- A scan of bodies has an orientation if it had it before or one of the bodies has it. -/
theorem covers_foldl_iff {o : Linearity} (ho : o.IsSingle) (bs : List Body) (l : Linearity) :
    (bs.foldl (fun l b => l.join (p.orientation b)) l).Covers o ↔
      l.Covers o ∨ ∃ b ∈ bs, (p.orientation b).Covers o := by
  induction bs generalizing l with
  | nil => simp
  | cons b bs ih =>
    rw [List.foldl_cons, ih, Linearity.covers_join_iff ho, List.exists_mem_cons_iff, or_assoc]

/-- **The orientation of a grammar is that of its bodies**, wherever they stand. -/
theorem covers_linearity_iff {o : Linearity} (ho : o.IsSingle) :
    p.linearity.Covers o ↔ ∃ b ∈ p.productions.flatten, (p.orientation b).Covers o := by
  have hnone : ¬ Linearity.Covers .none o := by rcases ho with rfl | rfl <;> decide
  rw [linearity, covers_foldl_iff ho, or_iff_right hnone]

end Parts

/-! ## Right-linear tables and their automata -/

/-- A body that writes at most one terminal and then, if it wrote one, may go on at a nonterminal. -/
inductive RightBody : Body → Prop
  | nil : RightBody []
  | last {a : Symbol} (ha : a.isLower = true) : RightBody [a]
  | pair {a x : Symbol} (ha : a.isLower = true) (hx : x.isLower = false) : RightBody [a, x]

namespace RuleTable

/-- All bodies of the table are right-linear and all heads are nonterminals. -/
structure RightLinear (t : RuleTable) : Prop where
  head : ∀ s ∈ t.heads, s.isLower = false
  body : ∀ s, ∀ b ∈ t.bodies s, RightBody b

/-- How far a derivation has come: the nonterminal that is left, or none. -/
abbrev State (t : RuleTable) := Option {s : Symbol // s ∈ t.heads}

/-- What is left to derive in a state. -/
def State.rest {t : RuleTable} (q : State t) : Body := (q.map Subtype.val).toList

/-- The automaton of a right-linear table. It reads a terminal where a body writes it, and may stop
    where nothing is left or what is left may be empty. -/
def automaton (t : RuleTable) (start : Symbol) : NFA Symbol (State t) where
  step q a := {r | ∃ head, q = some head ∧ a :: r.rest ∈ t.bodies head}
  start := {q | q.rest = [start]}
  accept := {q | ∀ head, q = some head → [] ∈ t.bodies head}

variable {t : RuleTable}

/-- A body that starts with a terminal derives the words that start with it. -/
theorem derives_terminal_cons_iff {a : Symbol} (ha : a.isLower = true) {b : Body} {w : Word} :
    Derives t (a :: b) w ↔ ∃ v, w = a :: v ∧ Derives t b v := by
  constructor
  · intro h
    cases h with
    | terminal _ hv => exact ⟨_, rfl, hv⟩
    | nonterminal ha' => rw [ha] at ha'; cases ha'
  · rintro ⟨v, rfl, hv⟩
    exact .terminal ha hv

/-- A nonterminal that derives a word is a head, so it is the rest of a state. -/
theorem exists_state {x : Symbol} (hx : x.isLower = false) {w : Word} (h : Derives t [x] w) :
    ∃ q : State t, q.rest = [x] := by
  obtain ⟨c, hc, -⟩ := (derives_nonterminal_iff hx).mp h
  exact ⟨some ⟨x, mem_heads_of_mem_bodies hc⟩, rfl⟩

namespace RightLinear

variable {start : Symbol} (h : t.RightLinear)

include h

/-- The automaton stops where the rest derives the empty word. -/
theorem derives_rest_nil_iff (q : State t) :
    Derives t q.rest [] ↔ q ∈ (t.automaton start).accept := by
  cases q with
  | none => exact ⟨fun _ head hq => (Option.some_ne_none head hq.symm).elim, fun _ => .nil⟩
  | some s =>
    have hs : s.val.isLower = false := h.head s s.property
    constructor
    · intro hd head heq
      obtain rfl := Option.some.inj heq
      obtain ⟨c, hc, hw⟩ := (derives_nonterminal_iff hs).mp hd
      -- a body that is not empty writes its terminal
      cases h.body _ c hc with
      | nil => exact hc
      | last ha | pair ha _ =>
        obtain ⟨v, hv, -⟩ := (derives_terminal_cons_iff ha).mp hw
        cases hv
    · intro hacc
      exact .rule hs (hacc s rfl) .nil

/-- **One step.** The rest of a state derives a word exactly when the automaton can read its first
    letter and the rest of a state it then is in derives the others. -/
theorem derives_rest_cons_iff (q : State t) (a : Symbol) (w : Word) :
    Derives t q.rest (a :: w) ↔ ∃ r ∈ (t.automaton start).step q a, Derives t r.rest w := by
  cases q with
  | none =>
    constructor
    · intro hd
      cases derives_nil_iff.mp hd
    · rintro ⟨r, ⟨head, hq, -⟩, -⟩
      cases hq
  | some s =>
    have hs : s.val.isLower = false := h.head s s.property
    constructor
    · intro hd
      obtain ⟨c, hc, hw⟩ := (derives_nonterminal_iff hs).mp hd
      cases h.body _ c hc with
      | nil => cases derives_nil_iff.mp hw
      | last ha =>
        obtain ⟨v, ⟨⟩, hv⟩ := (derives_terminal_cons_iff ha).mp hw
        exact ⟨none, ⟨s, rfl, hc⟩, hv⟩
      | pair ha hx =>
        obtain ⟨v, ⟨⟩, hv⟩ := (derives_terminal_cons_iff ha).mp hw
        -- the nonterminal derives what is left, so it is a head and there is a state for it
        obtain ⟨r, hr⟩ := exists_state hx hv
        exact ⟨r, ⟨s, rfl, by rwa [hr]⟩, by rwa [hr]⟩
    · rintro ⟨r, ⟨head, hq, hc⟩, hw⟩
      obtain rfl := Option.some.inj hq
      have ha : a.isLower = true := by
        generalize hb : a :: r.rest = b at hc
        cases h.body _ b hc with
        | nil => cases hb
        | last ha | pair ha _ => rwa [(List.cons.inj hb).1]
      exact .rule hs hc (.terminal ha hw)

/-- **A run.** What the automaton accepts from a set of states is what the rests of these derive. -/
theorem mem_acceptsFrom_iff (S : Set (State t)) (w : Word) :
    w ∈ (t.automaton start).acceptsFrom S ↔ ∃ q ∈ S, Derives t q.rest w := by
  induction w generalizing S with
  | nil =>
    rw [NFA.nil_mem_acceptsFrom]
    exact exists_congr fun q => and_congr_right fun _ => (h.derives_rest_nil_iff q).symm
  | cons a w ih =>
    rw [NFA.cons_mem_acceptsFrom, ih]
    constructor
    · rintro ⟨r, hr, hw⟩
      obtain ⟨q, hq, hstep⟩ := NFA.mem_stepSet.mp hr
      exact ⟨q, hq, (h.derives_rest_cons_iff q a w).mpr ⟨r, hstep, hw⟩⟩
    · rintro ⟨q, hq, hw⟩
      obtain ⟨r, hstep, hr⟩ := (h.derives_rest_cons_iff q a w).mp hw
      exact ⟨r, NFA.mem_stepSet.mpr ⟨q, hq, hstep⟩, hr⟩

end RightLinear

/-! ## Words of a table, and its mirror image -/

/-- The words of a nonterminal. -/
def words (t : RuleTable) (start : Symbol) : Language Symbol := {w | Derives t [start] w}

theorem mem_words {start : Symbol} {w : Word} : w ∈ t.words start ↔ Derives t [start] w := Iff.rfl

/-- The table with every body turned around. -/
def mirror (t : RuleTable) : RuleTable := t.map fun e => (e.1, e.2.map List.reverse)

theorem heads_mirror : t.mirror.heads = t.heads := by
  rw [heads, heads, mirror, List.map_map]
  rfl

theorem bodies_mirror (s : Symbol) : t.mirror.bodies s = (t.bodies s).map List.reverse := by
  induction t with
  | nil => rfl
  | cons e t ih =>
    rw [mirror, List.map_cons, bodies_cons, bodies_cons, ← mirror, ih]
    split <;> rfl

theorem mirror_mirror : t.mirror.mirror = t := by
  rw [mirror, mirror, List.map_map]
  refine (List.map_congr_left fun e _ => ?_).trans (List.map_id t)
  simp

/-- A mirrored table derives the mirrored words. -/
theorem Derives.mirror {b : Body} {w : Word} (h : Derives t b w) :
    Derives t.mirror b.reverse w.reverse := by
  induction h with
  | nil => exact .nil
  | terminal hs _ ih =>
    rw [List.reverse_cons, List.reverse_cons]
    exact ih.append (.terminal hs .nil)
  | @nonterminal s c b u w hs hc _ _ ihu ihw =>
    -- turned around, the word of the nonterminal comes last
    rw [List.reverse_cons, List.reverse_append]
    have hc' : c.reverse ∈ t.mirror.bodies s := by
      rw [bodies_mirror]
      exact List.mem_map_of_mem hc
    exact ihw.append (.rule hs hc' ihu)

theorem derives_mirror_iff {b : Body} {w : Word} :
    Derives t.mirror b w ↔ Derives t b.reverse w.reverse := by
  constructor
  · intro h
    simpa only [mirror_mirror] using h.mirror
  · intro h
    simpa only [List.reverse_reverse] using h.mirror

theorem words_mirror (start : Symbol) : t.mirror.words start = (t.words start).reverse := by
  ext w
  rw [Language.mem_reverse, mem_words, mem_words, derives_mirror_iff, List.reverse_singleton]

/-- **The words of a right-linear table form a regular language.** -/
theorem RightLinear.isRegular_words (h : t.RightLinear) {start : Symbol}
    (hstart : start.isLower = false) : (t.words start).IsRegular := by
  refine ⟨Set (State t), inferInstance, (t.automaton start).toDFA, ?_⟩
  ext w
  rw [NFA.toDFA_correct, NFA.accepts_eq_acceptsFrom_start, h.mem_acceptsFrom_iff, mem_words]
  constructor
  · rintro ⟨q, hq, hw⟩
    rwa [show q.rest = [start] from hq] at hw
  · intro hw
    obtain ⟨q, hq⟩ := exists_state hstart hw
    exact ⟨q, hq, by rwa [hq]⟩

end RuleTable

/-! ## Regular grammars -/

namespace Parts

variable {p : Parts}

theorem isTerminal_iff {s : Symbol} : p.isTerminal s = true ↔ s ∈ p.terminals :=
  List.contains_iff_mem

theorem isNonterminal_iff {s : Symbol} : p.isNonterminal s = true ↔ s ∈ p.nonterminals :=
  List.contains_iff_mem

theorem isRightPair_iff {b : Body} :
    p.isRightPair b = true ↔ ∃ a x, b = [a, x] ∧ a ∈ p.terminals ∧ x ∈ p.nonterminals := by
  match b with
  | [] | [_] | _ :: _ :: _ :: _ => simp [isRightPair]
  | [a, x] => simp [isRightPair, isTerminal_iff, isNonterminal_iff]

theorem isLeftPair_iff {b : Body} :
    p.isLeftPair b = true ↔ ∃ x a, b = [x, a] ∧ x ∈ p.nonterminals ∧ a ∈ p.terminals := by
  match b with
  | [] | [_] | _ :: _ :: _ :: _ => simp [isLeftPair]
  | [x, a] => simp [isLeftPair, isTerminal_iff, isNonterminal_iff]

/-- The bodies of a regular grammar, spelled out. -/
theorem isRegularBody_iff {b : Body} :
    p.isRegularBody b = true ↔
      b = [] ∨ (∃ a ∈ p.terminals, b = [a]) ∨ p.isRightPair b = true ∨ p.isLeftPair b = true := by
  match b with
  | [] => simp [isRegularBody]
  | [a] => simp [isRegularBody, isRightPair, isLeftPair, isTerminal_iff]
  | x :: y :: rest => simp [isRegularBody]

theorem covers_right_orientation_iff {b : Body} :
    (p.orientation b).Covers .right ↔ p.isRightPair b = true := by
  unfold orientation
  cases p.isRightPair b <;> cases p.isLeftPair b <;> decide

namespace WellFormed

variable (hp : p.WellFormed)
include hp

/-- No symbol is a terminal and a nonterminal, so no body is a pair both ways. -/
theorem isRightPair_eq_false_of_isLeftPair {b : Body} (h : p.isLeftPair b = true) :
    p.isRightPair b = false := by
  obtain ⟨x, a, rfl, hx, -⟩ := isLeftPair_iff.mp h
  refine Bool.eq_false_iff.mpr fun hr => ?_
  obtain ⟨x', a', heq, hx', -⟩ := isRightPair_iff.mp hr
  obtain ⟨rfl, -⟩ := List.cons.inj heq
  exact Bool.eq_false_iff.mp (hp.nonterminal_not_lower hx) (hp.terminals_lower x hx')

theorem covers_left_orientation_iff {b : Body} :
    (p.orientation b).Covers .left ↔ p.isLeftPair b = true := by
  unfold orientation
  cases hl : p.isLeftPair b with
  | true => rw [hp.isRightPair_eq_false_of_isLeftPair hl]; decide
  | false => cases p.isRightPair b <;> decide

/-- A body of a regular grammar that is no left-linear pair is right-linear. -/
theorem rightBody {b : Body} (hb : p.isRegularBody b = true) (hl : p.isLeftPair b = false) :
    RightBody b := by
  rcases isRegularBody_iff.mp hb with rfl | ⟨a, ha, rfl⟩ | hr | hl'
  · exact .nil
  · exact .last (hp.terminals_lower a ha)
  · obtain ⟨a, x, rfl, ha, hx⟩ := isRightPair_iff.mp hr
    exact .pair (hp.terminals_lower a ha) (hp.nonterminal_not_lower hx)
  · rw [hl] at hl'
    cases hl'

/-- A body of a regular grammar that is no right-linear pair is right-linear when turned around. -/
theorem rightBody_reverse {b : Body} (hb : p.isRegularBody b = true) (hr : p.isRightPair b = false) :
    RightBody b.reverse := by
  rcases isRegularBody_iff.mp hb with rfl | ⟨a, ha, rfl⟩ | hr' | hl
  · exact .nil
  · exact .last (hp.terminals_lower a ha)
  · rw [hr] at hr'
    cases hr'
  · obtain ⟨x, a, rfl, hx, ha⟩ := isLeftPair_iff.mp hl
    exact .pair (hp.terminals_lower a ha) (hp.nonterminal_not_lower hx)

/-- **The bodies of a regular grammar are right-linear, or they all are when turned around.** -/
theorem rightLinear_or_mirror (hreg : p.isRegular = true) :
    RuleTable.RightLinear p.entries ∨ RuleTable.RightLinear (RuleTable.mirror p.entries) := by
  obtain ⟨hall, hmixed⟩ : (∀ b ∈ p.productions.flatten, p.isRegularBody b = true) ∧
      p.linearity ≠ .mixed := by
    simpa only [isRegular, Bool.and_eq_true, List.all_eq_true, decide_eq_true_eq] using hreg
  have hmem : ∀ s, ∀ b ∈ RuleTable.bodies p.entries s, b ∈ p.productions.flatten := by
    intro s b hb
    obtain ⟨bs, hbs, hb⟩ := hp.bodies_mem hb
    exact List.mem_flatten_of_mem hbs hb
  have hhead : ∀ s ∈ RuleTable.heads p.entries, s.isLower = false := by
    intro s hs
    rw [heads_entries hp.count] at hs
    exact hp.nonterminal_not_lower hs
  rw [Ne, Linearity.eq_mixed_iff, not_and_or, covers_linearity_iff (.inl rfl),
    covers_linearity_iff (.inr rfl)] at hmixed
  rcases hmixed with hnone | hnone
  · -- no body is a right-linear pair
    right
    refine ⟨by rwa [RuleTable.heads_mirror], fun s b hb => ?_⟩
    rw [RuleTable.bodies_mirror] at hb
    obtain ⟨c, hc, rfl⟩ := List.mem_map.mp hb
    refine hp.rightBody_reverse (hall c (hmem s c hc)) (Bool.eq_false_iff.mpr fun hr => ?_)
    exact hnone ⟨c, hmem s c hc, covers_right_orientation_iff.mpr hr⟩
  · -- no body is a left-linear pair
    left
    refine ⟨hhead, fun s b hb => ?_⟩
    refine hp.rightBody (hall b (hmem s b hb)) (Bool.eq_false_iff.mpr fun hl => ?_)
    exact hnone ⟨b, hmem s b hb, hp.covers_left_orientation_iff.mpr hl⟩

/-- The words of a regular grammar's nonterminal form a regular language. -/
theorem isRegular_words (hreg : p.isRegular = true) {s : Symbol} (hs : s ∈ p.nonterminals) :
    (RuleTable.words p.entries s).IsRegular := by
  rcases hp.rightLinear_or_mirror hreg with h | h
  · exact h.isRegular_words (hp.nonterminal_not_lower hs)
  · refine Language.IsRegular.of_reverse ?_
    rw [← RuleTable.words_mirror]
    exact h.isRegular_words (hp.nonterminal_not_lower hs)

/-- A word derived from declared symbols has declared terminals only. -/
theorem mem_terminals_of_derives {b : Body} {w : Word} (h : RuleTable.Derives p.entries b w)
    (hb : ∀ s ∈ b, s ∈ p.terminals ∨ s ∈ p.nonterminals) : ∀ a ∈ w, a ∈ p.terminals := by
  induction h with
  | nil => intro a ha; cases ha
  | terminal hs _ ih =>
    obtain ⟨hd, hrest⟩ := List.forall_mem_cons.mp hb
    refine List.forall_mem_cons.mpr ⟨hd.resolve_right fun hn => ?_, ih hrest⟩
    rw [hp.nonterminal_not_lower hn] at hs
    cases hs
  | nonterminal _ hc _ _ ihu ihw =>
    exact List.forall_mem_append.mpr
      ⟨ihu fun s hs => hp.body_symbol hc hs, ihw (List.forall_mem_cons.mp hb).2⟩

end WellFormed
end Parts

/-- **A grammar classified as regular has a regular language.** There is a finite automaton over the
    terminals of the grammar that accepts exactly the words the grammar generates. -/
theorem regular_grammar_accepted (g : Grammar) (hne : g.nonterminals ≠ []) (hreg : g.isRegular = true) :
    ∃ (σ : Type) (_ : Fintype σ) (M : DFA {a : Symbol // a ∈ g.terminals} σ),
      ∀ w : Word, g.Generates w ↔ ∃ v ∈ M.accepts, v.map Subtype.val = w := by
  obtain ⟨start, rest, hstart⟩ := List.exists_cons_of_ne_nil hne
  have hs : start ∈ g.nonterminals := by rw [hstart]; exact List.mem_cons_self
  have hstart? : g.start? = some start := by rw [Parts.start?, hstart]; rfl
  obtain ⟨σ, hσ, M, hM⟩ := g.wellFormed.isRegular_words hreg hs
  refine ⟨σ, hσ, M.comap Subtype.val, fun w => ?_⟩
  have haccepts : ∀ v : List {a : Symbol // a ∈ g.terminals},
      v ∈ (M.comap Subtype.val).accepts ↔ RuleTable.Derives g.entries [start] (v.map Subtype.val) := by
    intro v
    rw [DFA.accepts_comap, hM]
    rfl
  rw [Grammar.generates_iff hstart?]
  constructor
  · intro hw
    -- the automaton reads terminals of the grammar only, and the word is made of these
    have hterm : ∀ a ∈ w, a ∈ g.terminals :=
      g.wellFormed.mem_terminals_of_derives hw (by simpa using .inr hs)
    have hval : (w.attachWith (· ∈ g.terminals) hterm).map Subtype.val = w :=
      List.attachWith_map_subtype_val hterm
    exact ⟨_, (haccepts _).mpr (by rwa [hval]), hval⟩
  · rintro ⟨v, hv, rfl⟩
    exact (haccepts v).mp hv

/-- A left-linear grammar: a word is written from its end, and the empty body is one of its starts. -/
def leftLinearParts : Parts where
  terminals := Body.ofText "ab"
  nonterminals := Body.ofText "ST"
  productions := [[Body.ofText "Ta", Body.ofText "b"], [Body.ofText "Sb", Body.ofText "Ta", []]]

def leftLinear : Grammar := ⟨leftLinearParts, false, by decide⟩

theorem regular_grammar_accepted_leftLinear :
    leftLinear.linearity = .left ∧ leftLinear.isRegular = true ∧
      ∃ (σ : Type) (_ : Fintype σ) (M : DFA {a : Symbol // a ∈ leftLinear.terminals} σ),
        ∀ w : Word, leftLinear.Generates w ↔ ∃ v ∈ M.accepts, v.map Subtype.val = w :=
  ⟨by decide, by decide, regular_grammar_accepted leftLinear (by decide) (by decide)⟩

end LetterGrammar
