import LetterGrammar.Language.Choice
import Mathlib.Algebra.Group.Nat.Defs
import Mathlib.Algebra.Ring.Int.Defs

/-!
# Numbers that make a choice

Every choice below a bound can be made: a number whose upper bits spell the choice is never passed over,
and the choice is read off it, by a remainder that changes nothing.

## Contents

- **`Source.Ahead`**: the numbers that a source yields next.
- **`Source.number`**: a number for a choice.
- **`Source.below?_of_ahead`**: a source that yields the number makes the choice.
-/

namespace LetterGrammar
namespace Source

variable {s : Source} {l l' : List Int} {v : Int} {width n i : Nat}

/-! ## What a source yields next -/

/-- The source after so many more draws. -/
def skip (s : Source) (k : Nat) : Source := ⟨s.numbers, s.drawn + k⟩

/-- The source yields the numbers next, before it starts again from its first number. -/
def Ahead (s : Source) (l : List Int) : Prop := l <+: s.numbers.drop s.drawn

theorem skip_skip (s : Source) (j k : Nat) : (s.skip j).skip k = s.skip (j + k) := by
  unfold skip
  rw [Nat.add_assoc]

theorem ahead_start (numbers : List Int) : (start numbers).Ahead numbers :=
  List.prefix_refl numbers

theorem Ahead.left (h : s.Ahead (l ++ l')) : s.Ahead l := (List.prefix_append l l').trans h

theorem Ahead.right (h : s.Ahead (l ++ l')) : (s.skip l.length).Ahead l' := by
  obtain ⟨rest, hrest⟩ := h
  refine ⟨rest, ?_⟩
  show l' ++ rest = s.numbers.drop (s.drawn + l.length)
  rw [← List.drop_drop, ← hrest, List.append_assoc, List.drop_left]

theorem Ahead.next (h : s.Ahead (v :: l)) :
    s.next = ((v % (Nat.pow 2 63 : Nat)).toNat, s.skip 1) := by
  obtain ⟨rest, hrest⟩ := h
  have hv : s.numbers[s.drawn]? = some v := by
    rw [← List.head?_drop, ← hrest]
    rfl
  have hlt : s.drawn < s.numbers.length := (List.getElem?_eq_some_iff.mp hv).1
  unfold Source.next
  rw [Nat.mod_eq_of_lt hlt, hv]
  rfl

/-! ## A number for each choice -/

/-- A number whose upper bits, as many as a choice below `n` is made from, spell `i`. -/
def number (n i : Nat) : Int := (i * 2 ^ (63 - widthFor n) : Nat)

theorem widthFor_cases (n : Nat) : widthFor n = 31 ∧ n < 2 ^ 31 ∨ widthFor n = 63 ∧ 2 ^ 31 ≤ n := by
  unfold widthFor
  by_cases hn : n < Nat.pow 2 31
  · exact Or.inl ⟨if_pos hn, hn⟩
  · exact Or.inr ⟨if_neg hn, Nat.le_of_not_lt hn⟩

/-- The bits that a choice below `n` is made from are enough for it. -/
theorem le_two_pow_widthFor (hn : n < 2 ^ 63) : n ≤ 2 ^ widthFor n := by
  rcases widthFor_cases n with ⟨hw, hlt⟩ | ⟨hw, _⟩
  · rw [hw]
    exact Nat.le_of_lt hlt
  · rw [hw]
    exact Nat.le_of_lt hn

/-- The number fits into 63 bits. -/
theorem mul_two_pow_lt (hi : i < n) (hn : n < 2 ^ 63) : i * 2 ^ (63 - widthFor n) < 2 ^ 63 := by
  have hwidth : widthFor n ≤ 63 := by
    rcases widthFor_cases n with ⟨hw, _⟩ | ⟨hw, _⟩ <;> omega
  calc i * 2 ^ (63 - widthFor n)
      < 2 ^ widthFor n * 2 ^ (63 - widthFor n) :=
        Nat.mul_lt_mul_of_pos_right (Nat.lt_of_lt_of_le hi (le_two_pow_widthFor hn))
          (Nat.two_pow_pos _)
    _ = 2 ^ 63 := by rw [← Nat.pow_add, Nat.add_sub_cancel' hwidth]

theorem number_range (hi : i < n) (hn : n < 2 ^ 63) : 0 ≤ number n i ∧ number n i < 2 ^ 63 := by
  have hlt := mul_two_pow_lt hi hn
  unfold number
  omega

/-- The choice is read off the upper bits of the number. -/
theorem Ahead.draw_number (h : s.Ahead (number n i :: l)) (hi : i < n) (hn : n < 2 ^ 63) :
    s.draw (widthFor n) = (i, s.skip 1) := by
  unfold Source.draw
  rw [h.next]
  have hmod : (number n i % (Nat.pow 2 63 : Nat)).toNat = i * 2 ^ (63 - widthFor n) := by
    unfold number
    rw [← Int.natCast_emod, Int.toNat_natCast]
    exact Nat.mod_eq_of_lt (mul_two_pow_lt hi hn)
  rw [hmod]
  exact congrArg (·, s.skip 1) (Nat.mul_div_cancel i (Nat.two_pow_pos _))

/-- A choice is not above the ceiling: below it there is a whole number of runs of `n` draws, and at least
    one. -/
theorem le_ceiling (hi : i < n) (hn : n ≤ 2 ^ width) : i ≤ ceiling width n := by
  have hsplit : n * (2 ^ width / n) + 2 ^ width % n = 2 ^ width := Nat.div_add_mod _ _
  have hrun : n * 1 ≤ n * (2 ^ width / n) :=
    Nat.mul_le_mul_left n (Nat.div_pos hn (Nat.zero_lt_of_lt hi))
  show i ≤ 2 ^ width - 1 - 2 ^ width % n
  omega

/-- **A source that yields the number makes the choice**, whether the bits are masked or reduced. -/
theorem below?_of_ahead (h : s.Ahead (number n i :: l)) (hi : i < n) (hn : n < 2 ^ 63) :
    s.below? n = some (i, s.skip 1) := by
  have hdraw := h.draw_number hi hn
  have hrem : i % n = i := Nat.mod_eq_of_lt hi
  unfold below?
  dsimp only
  split
  · rw [hdraw, hrem]
  · unfold drawUpTo?
    rw [hdraw, if_pos (le_ceiling hi (le_two_pow_widthFor hn)), Option.map_some, hrem]

end Source
end LetterGrammar
