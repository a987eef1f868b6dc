import LetterGrammar.Proofs.Height

/-!
# Derivation trees

A derivation tree of a nonterminal has one of its bodies at the root, and below it a derivation tree for
every nonterminal of that body. Trees are well-formed by construction: a tree in the type `Tree t s` uses
rules of the table only. Its height counts the bodies on a longest path, so a body of terminals makes a
tree of height one.

## Contents

- **`Forest`**, **`Tree`**: the trees below a body, and a tree of a nonterminal, with their words and
  heights.
- **`Tree.derives`**, **`Derives.exists_tree`**: trees are derivations, with every step kept.
- **`HasTree`**, **`hasTree_succ_iff`**: a nonterminal has a tree of bounded height, and when.
- **`HasTree.bounded`**: a lowest tree is not higher than the table has heads.
- **`IsLeastHeight`**: the least height of a tree.
-/

namespace LetterGrammar
namespace RuleTable

variable {t : RuleTable} {s : Symbol} {b : Body} {w : Word} {m n : Nat}

/-! ## Trees -/

/-- Derivation trees for the nonterminals of a body, from left to right. -/
inductive Forest (t : RuleTable) : Body → Type
  | nil : Forest t []
  | terminal {s : Symbol} {b : Body} (hs : s.isLower = true) (rest : Forest t b) : Forest t (s :: b)
  | nonterminal {s : Symbol} {c b : Body} (hs : s.isLower = false) (hc : c ∈ t.bodies s)
      (below : Forest t c) (rest : Forest t b) : Forest t (s :: b)

namespace Forest

/-- The word at the leaves. -/
def word : {b : Body} → Forest t b → Word
  | _, .nil => []
  | _, .terminal (s := s) _ rest => s :: rest.word
  | _, .nonterminal _ _ below rest => below.word ++ rest.word

/-- The height of the highest tree; zero if the body has no nonterminals. -/
def height : {b : Body} → Forest t b → Nat
  | _, .nil => 0
  | _, .terminal _ rest => rest.height
  | _, .nonterminal _ _ below rest => max (below.height + 1) rest.height

/-- Every nonterminal is expanded by the body that is chosen for it. -/
def Follows (choice : Symbol → Option Body) : {b : Body} → Forest t b → Prop
  | _, .nil => True
  | _, .terminal _ rest => rest.Follows choice
  | _, .nonterminal (s := s) (c := c) _ _ below rest =>
    choice s = some c ∧ below.Follows choice ∧ rest.Follows choice

end Forest

/-- A derivation tree of a nonterminal: the body at its root, and the trees below that. -/
structure Tree (t : RuleTable) (s : Symbol) where
  body : Body
  isBody : body ∈ t.bodies s
  below : Forest t body

namespace Tree

/-- The word at the leaves. -/
def word (T : Tree t s) : Word := T.below.word

/-- The number of bodies on a longest path from the root. -/
def height (T : Tree t s) : Nat := T.below.height + 1

/-- Every nonterminal is expanded by the body that is chosen for it, the one at the root included. -/
def Follows (T : Tree t s) (choice : Symbol → Option Body) : Prop :=
  choice s = some T.body ∧ T.below.Follows choice

end Tree

/-! ## Trees and derivations -/

theorem Forest.derives (f : Forest t b) : Derives t b f.word := by
  induction f with
  | nil => exact .nil
  | terminal hs rest ih => exact .terminal hs ih
  | nonterminal hs hc below rest ihc ih => exact .nonterminal hs hc ihc ih

/-- A tree is a derivation of its word. -/
theorem Tree.derives (hs : s.isLower = false) (T : Tree t s) : Derives t [s] T.word :=
  Derives.rule hs T.isBody T.below.derives

theorem Derives.exists_forest (h : Derives t b w) : ∃ f : Forest t b, f.word = w := by
  induction h with
  | nil => exact ⟨.nil, rfl⟩
  | terminal hs _ ih =>
      obtain ⟨f, rfl⟩ := ih
      exact ⟨.terminal hs f, rfl⟩
  | nonterminal hs hc _ _ ihc ih =>
      obtain ⟨below, rfl⟩ := ihc
      obtain ⟨rest, rfl⟩ := ih
      exact ⟨.nonterminal hs hc below rest, rfl⟩

/-- What a nonterminal derives is the word of one of its trees. -/
theorem Derives.exists_tree (hs : s.isLower = false) (h : Derives t [s] w) :
    ∃ T : Tree t s, T.word = w := by
  obtain ⟨c, hc, hw⟩ := (derives_nonterminal_iff hs).mp h
  obtain ⟨f, hf⟩ := hw.exists_forest
  exact ⟨⟨c, hc, f⟩, hf⟩

/-! ## Trees of bounded height -/

/-- The nonterminal has a tree of at most the given height. -/
def HasTree (t : RuleTable) (n : Nat) (s : Symbol) : Prop := ∃ T : Tree t s, T.height ≤ n

theorem HasTree.mono (h : HasTree t m s) (hle : m ≤ n) : HasTree t n s := by
  obtain ⟨T, hT⟩ := h
  exact ⟨T, Nat.le_trans hT hle⟩

theorem Forest.hasTree (f : Forest t b) {x : Symbol} (hx : x ∈ b) (hlow : x.isLower = false) :
    HasTree t f.height x := by
  induction f with
  | nil => exact absurd hx List.not_mem_nil
  | terminal hs rest ih =>
      rcases List.mem_cons.mp hx with rfl | hx
      · rw [hs] at hlow
        cases hlow
      · exact ih hx
  | nonterminal hs hc below rest _ ih =>
      rcases List.mem_cons.mp hx with rfl | hx
      · exact ⟨⟨_, hc, below⟩, Nat.le_max_left _ _⟩
      · exact (ih hx).mono (Nat.le_max_right _ _)

/-- The forest that takes the given tree for each nonterminal of a body. -/
def Forest.build : (b : Body) → (∀ x ∈ b, x.isLower = false → Tree t x) → Forest t b
  | [], _ => .nil
  | x :: b, trees =>
    if hx : x.isLower = true then
      .terminal hx (build b fun y hy => trees y (List.mem_cons_of_mem x hy))
    else
      let T := trees x List.mem_cons_self (Bool.eq_false_iff.mpr hx)
      .nonterminal (Bool.eq_false_iff.mpr hx) T.isBody T.below
        (build b fun y hy => trees y (List.mem_cons_of_mem x hy))

/-- A forest is as high as the highest tree it is built from. -/
theorem Forest.height_build {trees : ∀ x ∈ b, x.isLower = false → Tree t x}
    (h : ∀ x hx hlow, (trees x hx hlow).height ≤ n) : (Forest.build b trees).height ≤ n := by
  induction b with
  | nil => exact Nat.zero_le n
  | cons x b ih =>
      have hrest := ih fun y hy => h y (List.mem_cons_of_mem x hy)
      unfold Forest.build
      by_cases hx : x.isLower = true
      · rw [dif_pos hx]
        exact hrest
      · rw [dif_neg hx]
        exact Nat.max_le.mpr ⟨h x List.mem_cons_self (Bool.eq_false_iff.mpr hx), hrest⟩

/-- A forest follows a choice if the trees it is built from do. -/
theorem Forest.follows_build {choice : Symbol → Option Body}
    {trees : ∀ x ∈ b, x.isLower = false → Tree t x}
    (h : ∀ x hx hlow, (trees x hx hlow).Follows choice) : (Forest.build b trees).Follows choice := by
  induction b with
  | nil => trivial
  | cons x b ih =>
      have hrest := ih fun y hy => h y (List.mem_cons_of_mem x hy)
      unfold Forest.build
      by_cases hx : x.isLower = true
      · rw [dif_pos hx]
        exact hrest
      · rw [dif_neg hx]
        have hroot := h x List.mem_cons_self (Bool.eq_false_iff.mpr hx)
        exact ⟨hroot.1, hroot.2, hrest⟩

/-- A tree one level higher is a body whose nonterminals have trees. -/
theorem hasTree_succ_iff :
    HasTree t (n + 1) s ↔ ∃ c ∈ t.bodies s, ∀ x ∈ c, x.isLower = false → HasTree t n x := by
  constructor
  · rintro ⟨T, hT⟩
    refine ⟨T.body, T.isBody, fun x hx hlow => ?_⟩
    exact (T.below.hasTree hx hlow).mono (Nat.le_of_succ_le_succ hT)
  · rintro ⟨c, hc, hall⟩
    choose trees htrees using hall
    exact ⟨⟨c, hc, .build c trees⟩, Nat.succ_le_succ (Forest.height_build htrees)⟩

/-- Once a height brings in no new nonterminal, no greater height does. -/
theorem hasTree_of_standstill (hstill : ∀ x, HasTree t (m + 1) x → HasTree t m x)
    (h : HasTree t n s) : HasTree t m s := by
  induction n generalizing s with
  | zero =>
      obtain ⟨T, hT⟩ := h
      exact absurd hT (Nat.not_succ_le_zero _)
  | succ n ih =>
      obtain ⟨c, hc, hall⟩ := hasTree_succ_iff.mp h
      exact hstill s (hasTree_succ_iff.mpr ⟨c, hc, fun x hx hlow => ih (hall x hx hlow)⟩)

/-- **A lowest tree is not higher than the table has heads.** -/
theorem HasTree.bounded (h : HasTree t n s) : HasTree t t.heads.length s := by
  obtain ⟨k, hk, hstill⟩ := exists_standstill t.heads (fun k x => HasTree t k x)
    (fun _ _ ⟨T, _⟩ => mem_heads_of_mem_bodies T.isBody)
    (fun _ _ hx => hx.mono (Nat.le_succ _))
  exact (hasTree_of_standstill hstill h).mono hk

/-! ## Least heights -/

/-- The tree is as low as any tree of its nonterminal. -/
def Tree.IsLowest (T : Tree t s) : Prop := ∀ T' : Tree t s, T.height ≤ T'.height

/-- The least height of a tree of the nonterminal. -/
def IsLeastHeight (t : RuleTable) (s : Symbol) (n : Nat) : Prop :=
  ∃ T : Tree t s, T.height = n ∧ T.IsLowest

end RuleTable
end LetterGrammar
