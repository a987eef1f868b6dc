import LetterGrammar.Grammar.RuleTable
import LetterGrammar.Proofs.Canonical
import Mathlib.Logic.Relation

/-!
# Tables of rules and the walk over them

What the bodies of a head are after a change of the table, and which symbols the breadth-first walk
visits: exactly those that can be reached from its start.

## Contents

- **`heads`**, **`bodies_set`**, **`heads_set`**: the heads of a table and a change of bodies.
- **`Mentions`**: a head has a nonterminal in one of its bodies.
- **`Walks`**, **`walks_walk`**: the walk without a limit on its steps, and that it ends.
- **`walk_sound`**, **`Walks.closed`**: all the walk sees is reachable, and it leaves no edge unseen.
- **`mem_walk_iff`**, **`mem_reachable_iff`**: the walk computes the reflexive transitive closure.
- **`reachable_is_closure`**: the walk ends, and what it has seen then.
-/

namespace LetterGrammar
namespace RuleTable

variable {t : RuleTable}

/-! ## Heads and bodies -/

/-- The heads of the table, in order. -/
def heads (t : RuleTable) : List Symbol := t.map Prod.fst

theorem bodies_cons (e : Symbol × List Body) (t : RuleTable) (s : Symbol) :
    bodies (e :: t) s = if s = e.1 then e.2 else bodies t s := by
  unfold bodies
  rw [List.lookup_cons]
  by_cases h : s = e.1
  · rw [if_pos h, beq_iff_eq.mpr h]
    rfl
  · rw [if_neg h, beq_eq_false_iff_ne.mpr h]

/-- A symbol that is no head has no bodies. -/
theorem bodies_eq_nil {s : Symbol} (h : s ∉ t.heads) : t.bodies s = [] := by
  induction t with
  | nil => rfl
  | cons e t ih =>
      rw [heads, List.map_cons, List.mem_cons] at h
      rw [bodies_cons, if_neg (fun he => h (Or.inl he))]
      exact ih (fun hm => h (Or.inr hm))

theorem mem_heads_of_mem_bodies {s : Symbol} {b : Body} (h : b ∈ t.bodies s) : s ∈ t.heads := by
  by_cases hs : s ∈ t.heads
  · exact hs
  · rw [bodies_eq_nil hs] at h
    exact absurd h List.not_mem_nil

/-- In a list without repeated keys, a look-up finds the entry of its key. -/
theorem lookup_eq_some_of_mem {α β : Type} [BEq α] [LawfulBEq α] {l : List (α × β)} {a : α} {b : β}
    (hnd : (l.map Prod.fst).Nodup) (h : (a, b) ∈ l) : l.lookup a = some b := by
  induction l with
  | nil => exact absurd h List.not_mem_nil
  | cons e l ih =>
      rw [List.map_cons, List.nodup_cons] at hnd
      rcases List.mem_cons.mp h with rfl | h
      · exact List.lookup_cons_self
      · have hne : (a == e.1) = false :=
          beq_eq_false_iff_ne.mpr fun he => hnd.1 (List.mem_map.mpr ⟨(a, b), h, he⟩)
        rw [List.lookup_cons, hne]
        exact ih hnd.2 h

/-- In a list without repeated keys, a look-up finds the entries and nothing else. -/
theorem lookup_eq_some_iff_mem {α β : Type} [BEq α] [LawfulBEq α] {l : List (α × β)} {a : α} {b : β}
    (hnd : (l.map Prod.fst).Nodup) : l.lookup a = some b ↔ (a, b) ∈ l := by
  constructor
  · intro h
    obtain ⟨before, after, rfl, -⟩ := List.lookup_eq_some_iff.mp h
    simp
  · exact lookup_eq_some_of_mem hnd

/-- In a table without repeated heads, an entry gives the bodies of its head. -/
theorem bodies_eq_of_mem {s : Symbol} {bs : List Body} (hnd : t.heads.Nodup) (h : (s, bs) ∈ t) :
    t.bodies s = bs := by
  unfold bodies
  rw [lookup_eq_some_of_mem hnd h]
  rfl

/-- In a table that lists the values of a function, the bodies of a head are its value. -/
theorem bodies_zip_map (l : List Symbol) (f : Symbol → List Body) {s : Symbol} (h : s ∈ l) :
    bodies (l.zip (l.map f)) s = f s := by
  induction l with
  | nil => exact absurd h List.not_mem_nil
  | cons x l ih =>
      rw [List.map_cons, List.zip_cons_cons, bodies_cons]
      by_cases hsx : s = x
      · rw [if_pos hsx, hsx]
      · rw [if_neg hsx]
        exact ih ((List.mem_cons.mp h).resolve_left hsx)

/-- After a change, the changed head has the new bodies and every other head has its old ones. -/
theorem bodies_set (head : Symbol) (bs : List Body) (t : RuleTable) (s : Symbol) :
    (t.set head bs).bodies s = if s = head then bs else t.bodies s := by
  induction t with
  | nil =>
      rw [set, bodies_cons]
  | cons e t ih =>
      unfold set
      by_cases he : e.1 = head
      · rw [if_pos he, bodies_cons, bodies_cons]
        by_cases hs : s = head
        · rw [if_pos hs, if_pos hs]
        · rw [if_neg hs, if_neg hs, if_neg (fun h => hs (h.trans he))]
      · rw [if_neg he, bodies_cons, bodies_cons, ih]
        by_cases hs : s = e.1
        · rw [if_pos hs, if_neg (fun h => he (hs.symm.trans h)), if_pos hs]
        · rw [if_neg hs, if_neg hs]

@[simp] theorem bodies_set_self (head : Symbol) (bs : List Body) (t : RuleTable) :
    (t.set head bs).bodies head = bs := by
  rw [bodies_set, if_pos rfl]

theorem bodies_set_ne {head s : Symbol} (h : s ≠ head) (bs : List Body) (t : RuleTable) :
    (t.set head bs).bodies s = t.bodies s := by
  rw [bodies_set, if_neg h]

/-- Changing the bodies of a head keeps the heads. -/
theorem heads_set_of_mem {head : Symbol} (h : head ∈ t.heads) (bs : List Body) :
    (t.set head bs).heads = t.heads := by
  induction t with
  | nil => exact absurd h List.not_mem_nil
  | cons e t ih =>
      unfold set
      by_cases he : e.1 = head
      · rw [if_pos he, heads, heads, List.map_cons, List.map_cons, he]
      · rw [if_neg he]
        rw [heads, List.map_cons, List.mem_cons] at h
        have ht : head ∈ heads t := h.resolve_left (fun hh => he hh.symm)
        show e.1 :: heads (set head bs t) = e.1 :: heads t
        rw [ih ht]

/-- Giving a head the bodies it has changes nothing. -/
theorem set_bodies_self {head : Symbol} (h : head ∈ t.heads) : t.set head (t.bodies head) = t := by
  induction t with
  | nil => exact absurd h List.not_mem_nil
  | cons e t ih =>
      unfold set
      by_cases he : e.1 = head
      · rw [if_pos he, bodies_cons, if_pos he.symm, ← he]
      · rw [heads, List.map_cons, List.mem_cons] at h
        have ht : head ∈ heads t := h.resolve_left (fun hh => he hh.symm)
        rw [if_neg he, bodies_cons, if_neg (fun hh => he hh.symm), ih ht]

/-- A new head comes last. -/
theorem heads_set_of_not_mem {head : Symbol} (h : head ∉ t.heads) (bs : List Body) :
    (t.set head bs).heads = t.heads ++ [head] := by
  induction t with
  | nil => rfl
  | cons e t ih =>
      rw [heads, List.map_cons, List.mem_cons] at h
      unfold set
      rw [if_neg (fun he => h (Or.inl he.symm))]
      show e.1 :: heads (set head bs t) = e.1 :: (heads t ++ [head])
      rw [ih (fun hm => h (Or.inr hm))]

/-! ## Reachability -/

/-- The head has the nonterminal in one of its bodies. -/
def Mentions (t : RuleTable) (head s : Symbol) : Prop :=
  s.isUpper = true ∧ ∃ b ∈ t.bodies head, s ∈ b

/-- The fresh symbols of a head are those it mentions and that are not yet seen. -/
theorem mem_fresh {seen : List Symbol} {head s : Symbol} :
    s ∈ t.fresh seen head ↔ t.Mentions head s ∧ s ∉ seen := by
  unfold fresh Mentions
  rw [mem_distinctOn_id, List.mem_filter, List.mem_flatten]
  exact ⟨fun ⟨⟨hb, hu⟩, hn⟩ => ⟨⟨hu, hb⟩, hn⟩, fun ⟨⟨hu, hb⟩, hn⟩ => ⟨⟨hb, hu⟩, hn⟩⟩

theorem fresh_nodup (seen : List Symbol) (head : Symbol) : (t.fresh seen head).Nodup :=
  distinctOn_nodup seen _

/-- The walk forgets nothing it has seen. -/
theorem subset_walk (steps : Nat) (queue seen : List Symbol) : seen ⊆ t.walk steps queue seen := by
  induction steps generalizing queue seen with
  | zero => exact List.Subset.refl seen
  | succ steps ih =>
      cases queue with
      | nil => exact List.Subset.refl seen
      | cons head queue =>
          exact List.Subset.trans (List.subset_append_left seen _) (ih _ _)

/-- Whatever holds of the seen and the queued symbols and passes on to mentioned ones holds of all the
    walk sees. -/
theorem walk_sound {P : Symbol → Prop} (hstep : ∀ a s, P a → t.Mentions a s → P s)
    (steps : Nat) {queue seen : List Symbol} (hq : ∀ s ∈ queue, P s) (hs : ∀ s ∈ seen, P s) :
    ∀ s ∈ t.walk steps queue seen, P s := by
  induction steps generalizing queue seen with
  | zero => exact hs
  | succ steps ih =>
      cases queue with
      | nil => exact hs
      | cons head queue =>
          obtain ⟨hhead, hqueue⟩ := List.forall_mem_cons.mp hq
          have hfresh : ∀ s ∈ t.fresh seen head, P s := fun s h =>
            hstep head s hhead (mem_fresh.mp h).1
          exact ih (List.forall_mem_append.mpr ⟨hqueue, hfresh⟩)
            (List.forall_mem_append.mpr ⟨hs, hfresh⟩)

/-- All 26 nonterminal letters. -/
def upperLetters : List Symbol := (List.range 26).map fun (k : Nat) => ⟨65 + k⟩

theorem mem_upperLetters {s : Symbol} (h : s.isUpper = true) : s ∈ upperLetters := by
  have hc := Symbol.isUpper_iff.mp h
  refine List.mem_map.mpr ⟨(s.code - 65).toNat, List.mem_range.mpr (by omega), ?_⟩
  obtain ⟨code⟩ := s
  have hc' : (65 : Int) ≤ code := hc.1
  show Symbol.mk (65 + ((code - 65).toNat : Int)) = ⟨code⟩
  rw [Int.toNat_of_nonneg (by omega)]
  congr 1
  omega

/-- The walk with no limit on its steps: from a queue and the symbols seen so far to the symbols seen once
    the queue is empty. -/
inductive Walks (t : RuleTable) : List Symbol → List Symbol → List Symbol → Prop
  | done (seen : List Symbol) : Walks t [] seen seen
  | visit {head : Symbol} {queue seen final : List Symbol}
      (rest : Walks t (queue ++ t.fresh seen head) (seen ++ t.fresh seen head) final) :
      Walks t (head :: queue) seen final

/-- A visit sees no symbol twice. -/
theorem nodup_append_fresh {seen : List Symbol} (hnd : seen.Nodup) (head : Symbol) :
    (seen ++ t.fresh seen head).Nodup := by
  rw [List.nodup_append]
  refine ⟨hnd, fresh_nodup seen head, fun a ha b hb hab => ?_⟩
  exact (mem_fresh.mp hb).2 (hab ▸ ha)

/-- **The walk ends.** The steps cover the queue and every symbol that may still join it, so the queue runs
    empty before they do. -/
theorem walks_walk {all : List Symbol} (hall : ∀ a s, t.Mentions a s → s ∈ all) (steps : Nat)
    {queue seen : List Symbol} (hnd : seen.Nodup) (hsub : seen ⊆ all)
    (hbudget : all.length + queue.length ≤ steps + seen.length) :
    Walks t queue seen (t.walk steps queue seen) := by
  induction steps generalizing queue seen with
  | zero =>
      have hlen := hnd.length_le_of_subset hsub
      have hnil : queue = [] := List.eq_nil_of_length_eq_zero (by omega)
      subst hnil
      exact .done seen
  | succ steps ih =>
      cases queue with
      | nil => exact .done seen
      | cons head queue =>
          refine .visit (ih (nodup_append_fresh hnd head) ?_ ?_)
          · exact List.append_subset.mpr ⟨hsub, fun s hs => hall head s (mem_fresh.mp hs).1⟩
          · simp only [List.length_cons, List.length_append] at hbudget ⊢
            omega

namespace Walks

variable {queue seen final : List Symbol} (h : Walks t queue seen final)
include h

theorem nodup (hnd : seen.Nodup) : final.Nodup := by
  induction h with
  | done seen => exact hnd
  | @visit head _ _ _ _ ih => exact ih (nodup_append_fresh hnd head)

/-- **The walk leaves no edge unseen.** A symbol counts as explored once it has left the queue: all it
    mentions is seen by then. -/
theorem closed (hexplored : ∀ a ∈ seen, a ∉ queue → ∀ s, t.Mentions a s → s ∈ seen) :
    ∀ a ∈ final, ∀ s, t.Mentions a s → s ∈ final := by
  induction h with
  | done seen => exact fun a ha s hs => hexplored a ha List.not_mem_nil s hs
  | @visit head queue seen final _ ih =>
      refine ih fun a ha hq s hs => ?_
      rw [List.mem_append] at ha ⊢
      rw [List.mem_append, not_or] at hq
      have hseen : a ∈ seen := ha.resolve_right hq.2
      by_cases hah : a = head
      · -- the head just explored: what it mentions is seen or fresh
        subst hah
        by_cases hm : s ∈ seen
        · exact Or.inl hm
        · exact Or.inr (mem_fresh.mpr ⟨hs, hm⟩)
      · exact Or.inl (hexplored a hseen (fun hc => (List.mem_cons.mp hc).elim hah hq.1) s hs)

end Walks

/-- A walk from a start symbol ends if it has a step for each symbol it may see. -/
theorem walks_from {all : List Symbol} (hall : ∀ a s, t.Mentions a s → s ∈ all) {start : Symbol}
    (hstart : start ∈ all) {steps : Nat} (hsteps : all.length ≤ steps) :
    Walks t [start] [start] (t.walk steps [start] [start]) := by
  refine walks_walk hall steps (List.pairwise_singleton _ start) ?_ ?_
  · simpa using hstart
  · simpa using hsteps

/-- A walk with a step for each symbol it may see computes the reflexive transitive closure. -/
theorem mem_walk_iff {all : List Symbol} (hall : ∀ a s, t.Mentions a s → s ∈ all) {start s : Symbol}
    (hstart : start ∈ all) {steps : Nat} (hsteps : all.length ≤ steps) :
    s ∈ t.walk steps [start] [start] ↔ Relation.ReflTransGen t.Mentions start s := by
  constructor
  · intro h
    refine walk_sound (fun a s ha hm => ha.tail hm) steps ?_ ?_ s h
    · exact List.forall_mem_singleton.mpr .refl
    · exact List.forall_mem_singleton.mpr .refl
  · intro h
    induction h with
    | refl => exact subset_walk steps _ _ List.mem_cons_self
    | @tail a s _ hm ih =>
        exact (walks_from hall hstart hsteps).closed (fun a ha hq => absurd ha hq) a ih s hm

/-- A walk sees its start and nonterminals, and no other symbol. -/
theorem mem_seeable (start : Symbol) {a s : Symbol} (h : t.Mentions a s) : s ∈ start :: upperLetters :=
  List.mem_cons_of_mem start (mem_upperLetters h.1)

/-- The steps of the walk behind `reachable` are enough. -/
theorem walks_reachable (t : RuleTable) (start : Symbol) : Walks t [start] [start] (t.reachable start) :=
  walks_from (fun _ _ => mem_seeable start) List.mem_cons_self (Nat.le_refl 27)

/-- **The walk computes the reflexive transitive closure.** -/
theorem mem_reachable_iff {start s : Symbol} :
    s ∈ t.reachable start ↔ Relation.ReflTransGen t.Mentions start s :=
  mem_walk_iff (fun _ _ => mem_seeable start) List.mem_cons_self (Nat.le_refl 27)

/-- What a reachable symbol mentions is reachable. -/
theorem mem_reachable_of_mentions {start a s : Symbol} (ha : a ∈ t.reachable start)
    (h : t.Mentions a s) : s ∈ t.reachable start :=
  mem_reachable_iff.mpr ((mem_reachable_iff.mp ha).tail h)

/-- Only nonterminals are reached by going on from a symbol. -/
theorem isUpper_of_transGen {start s : Symbol} (h : Relation.TransGen t.Mentions start s) :
    s.isUpper = true := by
  cases h with
  | single hm => exact hm.1
  | tail _ hm => exact hm.1

/-- **What is reachable is exactly the reflexive transitive closure.** For every table, with whatever
    symbols and heads missing, and every start symbol, the walk without a limit on its steps empties its
    queue and has then seen what `reachable` gives: each symbol once, the start symbol and those of `A` to
    `Z` that can be reached from it by going, again and again, from a head to a nonterminal in one of its
    bodies. -/
theorem reachable_is_closure (t : RuleTable) (start : Symbol) :
    Walks t [start] [start] (t.reachable start) ∧ (t.reachable start).Nodup ∧
    ∀ s, s ∈ t.reachable start ↔
      s = start ∨ s.isUpper = true ∧
        Relation.TransGen (fun head x => x.isUpper = true ∧ ∃ b ∈ t.bodies head, x ∈ b) start s := by
  have hwalks := walks_reachable t start
  refine ⟨hwalks, hwalks.nodup (List.pairwise_singleton _ start), fun s => ?_⟩
  rw [mem_reachable_iff, Relation.reflTransGen_iff_eq_or_transGen]
  exact or_congr_right ⟨fun hpath => ⟨isUpper_of_transGen hpath, hpath⟩, And.right⟩

/-- A cycle, a head without bodies and one that is missing, from a start symbol that is no letter. -/
example : reachable [(⟨48⟩, [Body.ofText "xBA"]), (⟨65⟩, [Body.ofText "C", Body.ofText "0A"]), (⟨66⟩, []),
    (⟨67⟩, [Body.ofText "A"]), (⟨68⟩, [Body.ofText "Z"])] ⟨48⟩ = Body.ofText "0BAC" := by decide

end RuleTable
end LetterGrammar
