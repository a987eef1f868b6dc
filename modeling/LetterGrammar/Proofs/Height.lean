import LetterGrammar.Proofs.Rewriting
import Mathlib.Data.List.Perm.Subperm

/-!
# The height of derivations

A word that a nonterminal derives at all has a low derivation tree. Going down a path of a tree, the
words never get longer, and as long as their length stays the same the word itself does. A nonterminal
that comes back with the same word makes a detour, which can be cut out. So on a path without detours
each length occurs at most once with each nonterminal.

## Contents

- **`Within`**: derivations by a tree of bounded height.
- **`derives_iff_exists_within`**: what is derived is derived within some height.
- **`Reads.mono_below`**: a word is read from shorter words and from itself.
- **`Within.bounded`**: the height that is always enough.
-/

namespace LetterGrammar
namespace RuleTable

variable {t : RuleTable} {s : Symbol} {w : Word} {m n : Nat}

/-- The symbol derives the word by a tree of at most the given height. A body of terminals makes a tree
    of height one. -/
def Within (t : RuleTable) : Nat → Symbol → Word → Prop
  | 0, _, _ => False
  | n + 1, s, w => ∃ c ∈ t.bodies s, Reads (Within t n) c w

theorem Within.succ (h : Within t n s w) : Within t (n + 1) s w := by
  induction n generalizing s w with
  | zero => exact h.elim
  | succ n ih =>
      obtain ⟨c, hc, hread⟩ := h
      exact ⟨c, hc, hread.mono fun x _ _ u hu => ih hu⟩

theorem Within.mono (h : Within t m s w) (hle : m ≤ n) : Within t n s w := by
  induction hle with
  | refl => exact h
  | step _ ih => exact ih.succ

/-! ## Heights and derivations -/

theorem Within.derives (hs : s.isLower = false) (h : Within t n s w) : Derives t [s] w := by
  induction n generalizing s w with
  | zero => exact h.elim
  | succ n ih =>
      obtain ⟨c, hc, hread⟩ := h
      apply Derives.rule hs hc
      apply derives_iff_reads.mpr
      exact hread.mono fun x _ hx u hu => ih hx hu

/-- Finitely many heights have a common bound. -/
theorem exists_reads_within {b : Body} (h : Reads (fun s u => ∃ n, Within t n s u) b w) :
    ∃ n, Reads (Within t n) b w := by
  induction b generalizing w with
  | nil => exact ⟨0, h⟩
  | cons s b ih =>
      obtain ⟨u, v, rfl, hu, hv⟩ := h
      obtain ⟨n, hn⟩ := ih hv
      by_cases hs : s.isLower = true
      · rw [if_pos hs] at hu
        exact ⟨n, u, v, rfl, by rw [if_pos hs]; exact hu, hn⟩
      · rw [if_neg hs] at hu
        obtain ⟨m, hm⟩ := hu
        refine ⟨max m n, u, v, rfl, ?_, ?_⟩
        · rw [if_neg hs]
          exact hm.mono (Nat.le_max_left m n)
        · exact hn.mono fun x _ _ y hy => hy.mono (Nat.le_max_right m n)

/-- What is derived is derived within some height. -/
theorem derives_iff_exists_within (hs : s.isLower = false) :
    Derives t [s] w ↔ ∃ n, Within t n s w := by
  constructor
  · intro h
    -- the words within some height are closed under the rules
    have hread : Reads (fun s u => ∃ n, Within t n s u) [s] w := by
      apply h.least
      intro x c _ hc u hu
      obtain ⟨n, hn⟩ := exists_reads_within hu
      exact ⟨n + 1, c, hc, hn⟩
    exact (reads_singleton_iff hs).mp hread
  · rintro ⟨n, h⟩
    exact h.derives hs

/-! ## A bound on the height -/

/-- **A word is read from shorter words and from itself.** Only such words can be pieces of it. -/
theorem Reads.mono_below {given given' : Symbol → Word → Prop} {b : Body}
    (hsub : ∀ s u, u.length < w.length ∨ u = w → given s u → given' s u) (h : Reads given b w) :
    Reads given' b w := by
  induction b generalizing w with
  | nil => exact h
  | cons s b ih =>
      obtain ⟨u, v, rfl, hu, hv⟩ := h
      refine ⟨u, v, rfl, ?_, ih (fun x y hy => hsub x y ?_) hv⟩
      · by_cases hs : s.isLower = true
        · rw [if_pos hs] at hu ⊢
          exact hu
        · rw [if_neg hs] at hu ⊢
          apply hsub s u _ hu
          cases v with
          | nil => exact Or.inr (List.append_nil u).symm
          | cons a v => exact Or.inl (by simp)
      · -- a piece of the rest is shorter than the whole, unless nothing was cut off before it
        rcases hy with hlt | rfl
        · refine Or.inl ?_
          rw [List.length_append]
          omega
        · cases u with
          | nil => exact Or.inr rfl
          | cons a u =>
              refine Or.inl ?_
              rw [List.length_append, List.length_cons]
              omega

/-- A growing family of subsets of a list stands still within as many steps as the list has members. -/
theorem exists_standstill {α : Type} (l : List α) (P : Nat → α → Prop) (hmem : ∀ k a, P k a → a ∈ l)
    (hmono : ∀ k a, P k a → P (k + 1) a) : ∃ k ≤ l.length, ∀ a, P (k + 1) a → P k a := by
  apply Classical.byContradiction
  intro hnever
  -- as long as every step brings in a member, step `k` knows `k` different ones
  have hmany : ∀ k ≤ l.length + 1, ∃ xs : List α, xs.Nodup ∧ xs.length = k ∧ ∀ x ∈ xs, P k x := by
    intro k hk
    induction k with
    | zero => exact ⟨[], List.nodup_nil, rfl, fun x hx => absurd hx List.not_mem_nil⟩
    | succ k ih =>
        obtain ⟨xs, hnd, hlen, hxs⟩ := ih (Nat.le_of_succ_le hk)
        obtain ⟨a, hnew, hold⟩ : ∃ a, P (k + 1) a ∧ ¬ P k a := by
          apply Classical.byContradiction
          intro hno
          refine hnever ⟨k, Nat.le_of_succ_le_succ hk, fun a ha => ?_⟩
          exact Classical.byContradiction fun hn => hno ⟨a, ha, hn⟩
        refine ⟨a :: xs, List.nodup_cons.mpr ⟨fun ha => hold (hxs a ha), hnd⟩, by simp [hlen], ?_⟩
        exact List.forall_mem_cons.mpr ⟨hnew, fun x hx => hmono k x (hxs x hx)⟩
  obtain ⟨xs, hnd, hlen, hxs⟩ := hmany (l.length + 1) (Nat.le_refl _)
  have hle := (List.subperm_of_subset hnd fun x hx => hmem _ x (hxs x hx)).length_le
  omega

/-- Once a word finds no new head at some height, although shorter words are all found below it, the
    word finds none at greater heights either. -/
theorem within_of_standstill
    (hshort : ∀ s (u : Word) k, u.length < w.length → Within t k s u → Within t m s u)
    (hstill : ∀ s, Within t (m + 1) s w → Within t m s w) (h : Within t n s w) : Within t m s w := by
  induction n generalizing s with
  | zero => exact h.elim
  | succ n ih =>
      obtain ⟨c, hc, hread⟩ := h
      apply hstill
      refine ⟨c, hc, hread.mono_below fun x u hu hx => ?_⟩
      rcases hu with hlt | rfl
      · exact hshort x u n hlt hx
      · exact ih hx

/-- **The height that is always enough**: the number of heads, for each length a word can shrink to. -/
theorem Within.bounded (h : Within t n s w) : Within t (t.heads.length * (w.length + 1)) s w := by
  induction hlen : w.length using Nat.strongRecOn generalizing n s w with
  | ind len ih =>
      subst hlen
      have hshort : ∀ x (u : Word) k, u.length < w.length → Within t k x u →
          Within t (t.heads.length * w.length) x u := by
        intro x u k hu hx
        exact (ih u.length hu hx rfl).mono (Nat.mul_le_mul_left _ hu)
      -- from that height on only the word itself can find new heads
      obtain ⟨k, hk, hstill⟩ := exists_standstill t.heads
        (fun k x => Within t (t.heads.length * w.length + k) x w)
        (fun k x hx => by
          cases hm : t.heads.length * w.length + k with
          | zero => rw [hm] at hx; exact hx.elim
          | succ j =>
              rw [hm] at hx
              obtain ⟨c, hc, _⟩ := hx
              exact mem_heads_of_mem_bodies hc)
        (fun k x hx => hx.succ)
      have hword : Within t (t.heads.length * w.length + k) s w := by
        apply within_of_standstill _ hstill h
        exact fun x u j hu hx => (hshort x u j hu hx).mono (Nat.le_add_right _ _)
      apply hword.mono
      rw [Nat.mul_succ]
      exact Nat.add_le_add_left hk _

end RuleTable
end LetterGrammar
