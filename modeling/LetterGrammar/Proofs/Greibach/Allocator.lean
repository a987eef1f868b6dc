import LetterGrammar.Greibach.Allocator
import LetterGrammar.Proofs.Canonical

/-!
# The hand-out of fresh letters

An allocator hands out the letters that are free at its start, from the largest down. A call that succeeds
takes the first of the free letters; a call that fails finds none, and leaves the allocator where every
later call finds none again.

## Contents

- **`freeLetters`**, **`coming`**: the free letters, from the largest down.
- **`free_eq_lastFree?`**: what the search for a free letter finds.
- **`allocate_cases`**: what a call does.
- **`allocate_of_room`**, **`allocate_of_full`**: the next letter, if there is one.
- **`after`**, **`call`**: calls in a row.
- **`coming_after`**, **`mem_used_after`**, **`call_of_failed`**: what a number of calls does.
- **`hands_out_free_letters`**: the answers of all calls, and the letters in use between them.
-/

namespace LetterGrammar
namespace Allocator

/-! ## Free letters -/

/-- The first `k` letters, from the last of them down. -/
def lettersDown (k : Nat) : List Symbol :=
  ((List.range k).map fun i => letter (i + 1)).reverse

theorem lettersDown_succ (k : Nat) : lettersDown (k + 1) = letter (k + 1) :: lettersDown k := by
  simp [lettersDown, List.range_succ]

theorem mem_lettersDown {k : Nat} {s : Symbol} :
    s ∈ lettersDown k ↔ 65 ≤ s.code ∧ s.code ≤ floor + k := by
  obtain ⟨code⟩ := s
  unfold lettersDown
  rw [List.mem_reverse, List.mem_map]
  constructor
  · rintro ⟨i, hi, heq⟩
    injection heq with hcode
    have hlt := List.mem_range.mp hi
    unfold floor at hcode ⊢
    show 65 ≤ code ∧ code ≤ _
    omega
  · rintro ⟨hlow, hhigh⟩
    have hlow' : 65 ≤ code := hlow
    have hhigh' : code ≤ floor + k := hhigh
    unfold floor at hhigh'
    refine ⟨(code - 65).toNat, List.mem_range.mpr (by omega), ?_⟩
    show Symbol.mk (64 + (((code - 65).toNat + 1 : Nat) : Int)) = ⟨code⟩
    congr 1
    omega

theorem lettersDown_decreasing (k : Nat) :
    (lettersDown k).Pairwise fun s s' => s'.code < s.code := by
  induction k with
  | zero => exact .nil
  | succ k ih =>
      rw [lettersDown_succ]
      refine .cons (fun s hs => ?_) ih
      have hle := (mem_lettersDown.mp hs).2
      show s.code < floor + ((k + 1 : Nat) : Int)
      omega

/-- The letters from `next` down to `A` that are not in use. -/
def freeLetters (next : Symbol) (used : List Symbol) : List Symbol :=
  (lettersDown (next.code - floor).toNat).filter fun s => !used.contains s

theorem mem_freeLetters {next s : Symbol} {used : List Symbol} :
    s ∈ freeLetters next used ↔ (65 ≤ s.code ∧ s.code ≤ next.code) ∧ s ∉ used := by
  unfold freeLetters
  rw [List.mem_filter, mem_lettersDown]
  refine and_congr ?_ (by simp)
  unfold floor
  omega

theorem freeLetters_decreasing (next : Symbol) (used : List Symbol) :
    (freeLetters next used).Pairwise fun s s' => s'.code < s.code :=
  (lettersDown_decreasing _).sublist List.filter_sublist

/-- The letters that an allocator has still to hand out. -/
def coming (a : Allocator) : List Symbol :=
  freeLetters a.next a.used

/-- **What the search finds** is the first of the free letters, and the others are those below it; it finds
    nothing where no letter is free. -/
theorem free_eq_lastFree? (used : List Symbol) (k : Nat) :
    (lettersDown k).filter (fun s => !used.contains s) =
      match lastFree? used k with
      | some j => letter j :: (lettersDown (j - 1)).filter fun s => !used.contains s
      | none => [] := by
  induction k with
  | zero => rfl
  | succ k ih =>
      unfold lastFree?
      rw [lettersDown_succ]
      by_cases hused : used.contains (letter (k + 1)) = true
      · rw [if_pos hused, List.filter_cons_of_neg (by simpa using hused)]
        exact ih
      · rw [if_neg hused, List.filter_cons_of_pos (by simpa using hused)]
        rfl

/-! ## One call -/

/-- The fault of a call that finds so many letters in use and none free. -/
def exhausted (inUse : Nat) : Fault :=
  .conversion .identifierSpaceExhausted (toString inUse ++ " nonterminal identifiers in use") none

/-- Handing out the letter that the search finds leaves the letters behind it. -/
theorem coming_of_found {a : Allocator} {k : Nat} (h : lastFree? a.used a.room = some k) :
    a.coming = letter k :: coming ⟨⟨floor + k - 1⟩, letter k :: a.used⟩ := by
  have hfree := free_eq_lastFree? a.used a.room
  rw [h] at hfree
  have hroom : (floor + (k : Int) - 1 - floor).toNat = k - 1 := by omega
  refine hfree.trans (congrArg (letter k :: ·) ?_)
  show _ = (lettersDown (floor + (k : Int) - 1 - floor).toNat).filter _
  rw [hroom]
  refine List.filter_congr fun s hs => ?_
  -- the letter handed out is not among those below it
  have hne : s ≠ letter k := by
    rintro rfl
    obtain ⟨hlow, hhigh⟩ : 65 ≤ floor + (k : Int) ∧ floor + (k : Int) ≤ floor + ((k - 1 : Nat) : Int) :=
      mem_lettersDown.mp hs
    unfold floor at hlow
    omega
  rw [List.contains_cons, beq_eq_false_iff_ne.mpr hne, Bool.false_or]

/-- **What a call does**: it hands out the first of the letters to come, which is then in use, or there is
    none to come and it stops below `A`. -/
theorem allocate_cases (a : Allocator) :
    (∃ s, a.allocate.1 = .ok s ∧ a.allocate.2.used = s :: a.used ∧ a.coming = s :: a.allocate.2.coming) ∨
    (a.allocate.1 = .error (exhausted a.used.length) ∧ a.allocate.2.used = a.used ∧
      a.allocate.2.next.code ≤ floor ∧ a.coming = []) := by
  unfold allocate
  cases hlast : lastFree? a.used a.room with
  | some k => exact Or.inl ⟨letter k, rfl, rfl, coming_of_found hlast⟩
  | none =>
      have hfree := free_eq_lastFree? a.used a.room
      rw [hlast] at hfree
      refine Or.inr ⟨rfl, rfl, ?_, hfree⟩
      dsimp only
      split
      · exact Int.le_refl _
      · exact Int.not_lt.mp ‹_›

theorem coming_allocate (a : Allocator) : a.allocate.2.coming = a.coming.tail := by
  rcases a.allocate_cases with ⟨s, _, _, hcoming⟩ | ⟨_, _, hnext, hcoming⟩
  · rw [hcoming, List.tail_cons]
  · have hroom : (a.allocate.2.next.code - floor).toNat = 0 := by omega
    rw [hcoming, coming, freeLetters, hroom]
    rfl

/-- The letters in use after a call are those before it and the one it hands out. -/
theorem mem_used_allocate {a : Allocator} {s : Symbol} :
    s ∈ a.allocate.2.used ↔ s ∈ a.used ∨ a.allocate.1 = .ok s := by
  rcases a.allocate_cases with ⟨x, hok, hused, _⟩ | ⟨hfail, hused, _⟩
  · rw [hok, hused, List.mem_cons, Except.ok.injEq, or_comm, eq_comm]
  · rw [hfail, hused]
    exact ⟨Or.inl, fun h => h.resolve_right (by rintro ⟨⟩)⟩

/-- **Below `A` nothing changes any more.** -/
theorem allocate_of_low {a : Allocator} (h : a.next.code ≤ floor) :
    a.allocate = (.error (exhausted a.used.length), a) := by
  have hroom : a.room = 0 := by
    unfold room
    omega
  unfold allocate
  rw [hroom]
  show (_, (⟨if floor < a.next.code then ⟨floor⟩ else a.next, a.used⟩ : Allocator)) = _
  rw [if_neg (Int.not_lt.mpr h)]
  rfl

theorem allocate_of_full {a : Allocator} (hfull : a.next.code ≤ 64) :
    ∃ text after, a.allocate = (.error (.conversion .identifierSpaceExhausted text none), after) :=
  ⟨_, _, allocate_of_low hfull⟩

/-- A free letter to try is the next one to be handed out. -/
theorem allocate_of_room {a : Allocator} (hroom : 64 < a.next.code) (hfree : a.next ∉ a.used) :
    a.allocate = (.ok a.next, ⟨⟨a.next.code - 1⟩, a.next :: a.used⟩) := by
  obtain ⟨k, hk⟩ : ∃ k : Nat, a.room = k + 1 :=
    Nat.exists_eq_succ_of_ne_zero (by unfold room floor; omega)
  have hcode : floor + ((k + 1 : Nat) : Int) = a.next.code := by
    unfold room floor at hk
    unfold floor
    omega
  have hletter : letter (k + 1) = a.next := by
    unfold letter
    rw [hcode]
  have hlast : lastFree? a.used (k + 1) = some (k + 1) := by
    unfold lastFree?
    rw [hletter, if_neg]
    exact fun h => hfree (List.contains_iff_mem.mp h)
  unfold allocate
  rw [hk, hlast]
  dsimp only
  rw [hletter, hcode]

/-! ## Calls in a row -/

/-- The allocator after so many calls. -/
def after (a : Allocator) : Nat → Allocator
  | 0 => a
  | k + 1 => (a.after k).allocate.2

/-- The answer of a call, the first one being call number zero. -/
def call (a : Allocator) (k : Nat) : Except Fault Symbol :=
  (a.after k).allocate.1

variable {a : Allocator}

/-- Each call takes a letter off those to come. -/
theorem coming_after (a : Allocator) (k : Nat) : (a.after k).coming = a.coming.drop k := by
  induction k with
  | zero => rfl
  | succ k ih =>
      show (a.after k).allocate.2.coming = _
      rw [coming_allocate, ih, List.tail_drop]

/-- **A call hands out the letter whose turn it is.** -/
theorem call_of_coming {k : Nat} {s : Symbol} (h : a.coming[k]? = some s) : a.call k = .ok s := by
  have hhead : (a.after k).coming.head? = some s := by
    rw [coming_after, List.head?_drop, h]
  rcases (a.after k).allocate_cases with ⟨x, hok, _, hcoming⟩ | ⟨_, _, _, hcoming⟩
  · rw [hcoming, List.head?_cons] at hhead
    injection hhead with hx
    rw [← hx]
    exact hok
  · rw [hcoming] at hhead
    cases hhead

/-- **A call fails once all letters have had their turn.** -/
theorem call_of_length_le {k : Nat} (h : a.coming.length ≤ k) :
    a.call k = .error (exhausted (a.after k).used.length) := by
  have hnil : (a.after k).coming = [] := by
    rw [coming_after, List.drop_of_length_le h]
  rcases (a.after k).allocate_cases with ⟨s, _, _, hcoming⟩ | ⟨hfail, _⟩
  · rw [hnil] at hcoming
    cases hcoming
  · exact hfail

/-- **The letters in use after some calls** are those at the start and those handed out. -/
theorem mem_used_after {s : Symbol} (k : Nat) :
    s ∈ (a.after k).used ↔ s ∈ a.used ∨ ∃ j < k, a.call j = .ok s := by
  induction k with
  | zero => exact ⟨Or.inl, fun h => h.resolve_right fun ⟨j, hj, _⟩ => absurd hj (Nat.not_lt_zero j)⟩
  | succ k ih =>
      show s ∈ (a.after k).allocate.2.used ↔ _
      rw [mem_used_allocate, ih, Nat.exists_lt_succ_right, or_assoc]
      rfl

/-- Calls only move letters from those to come to those in use. -/
theorem length_used_after (a : Allocator) (k : Nat) :
    (a.after k).used.length + (a.after k).coming.length = a.used.length + a.coming.length := by
  induction k with
  | zero => rfl
  | succ k ih =>
      rw [← ih]
      show (a.after k).allocate.2.used.length + (a.after k).allocate.2.coming.length = _
      rw [coming_allocate]
      rcases (a.after k).allocate_cases with ⟨s, _, hused, hcoming⟩ | ⟨_, hused, _, hcoming⟩
      · rw [hused, hcoming, List.tail_cons, List.length_cons, List.length_cons]
        omega
      · rw [hused, hcoming, List.tail_nil]

/-- A call below `A` stops there, and all calls after it leave the allocator as it is. -/
theorem after_of_low {k : Nat} (h : (a.after k).next.code ≤ floor) {m : Nat} (hm : k ≤ m) :
    a.after m = a.after k := by
  induction hm with
  | refl => rfl
  | @step m _ ih =>
      show (a.after m).allocate.2 = _
      rw [ih, allocate_of_low h]

/-- **Once a call has failed, later calls fail in the same way and change nothing.** -/
theorem call_of_failed {k : Nat} {f : Fault} (h : a.call k = .error f) {m : Nat} (hm : k < m) :
    a.call m = .error f ∧ a.after (m + 1) = a.after m := by
  rcases (a.after k).allocate_cases with ⟨s, hok, _⟩ | ⟨hfail, hused, hlow, _⟩
  · have hok' : a.call k = .ok s := hok
    rw [h] at hok'
    cases hok'
  · have hf : f = exhausted (a.after k).used.length := Except.error.inj (h.symm.trans hfail)
    have hlow' : (a.after (k + 1)).next.code ≤ floor := hlow
    have hused' : (a.after (k + 1)).used = (a.after k).used := hused
    refine ⟨?_, (after_of_low hlow' (by omega)).trans (after_of_low hlow' hm).symm⟩
    rw [call, after_of_low hlow' hm, allocate_of_low hlow', hused', hf]

/-! ## From the start -/

theorem mem_used_start {next s : Symbol} {used : List Symbol} : s ∈ (start next used).used ↔ s ∈ used := by
  show s ∈ distinctOn id [] used ↔ _
  rw [mem_distinctOn_id]
  exact and_iff_left List.not_mem_nil

theorem coming_start (next : Symbol) (used : List Symbol) :
    (start next used).coming = freeLetters next used := by
  refine List.filter_congr fun s _ => congrArg _ ?_
  rw [Bool.eq_iff_iff, List.contains_iff_mem, List.contains_iff_mem, mem_used_start]

/-- **The allocator hands out exactly the free letters, the largest first, each once.** Whatever symbol it
    starts at and whatever symbols are in use, the letters from `A` up to the start that are not in use
    are listed in `freeLetters`, from the largest down. Call number `k`, counted from zero, gives the
    letter at place `k` of that list; if the list ends before, it says that the letters are used up, and
    how many symbols are in use. After any number of calls the symbols in use are those at the start and
    those handed out; and once a call has failed, every later call fails in the same way and leaves the
    allocator as it is. -/
theorem hands_out_free_letters (next : Symbol) (used : List Symbol) (k : Nat) :
    ((∀ s, s ∈ freeLetters next used ↔ (65 ≤ s.code ∧ s.code ≤ next.code) ∧ s ∉ used) ∧
      (freeLetters next used).Pairwise fun s s' => s'.code < s.code) ∧
    (∀ s, (freeLetters next used)[k]? = some s → (start next used).call k = .ok s) ∧
    ((freeLetters next used).length ≤ k → (start next used).call k =
      .error (exhausted (used.eraseDups.length + (freeLetters next used).length))) ∧
    (∀ s, s ∈ ((start next used).after k).used ↔
      s ∈ used ∨ ∃ j < k, (start next used).call j = .ok s) ∧
    ∀ f, (start next used).call k = .error f → ∀ m, k < m →
      (start next used).call m = .error f ∧
        (start next used).after (m + 1) = (start next used).after m := by
  refine ⟨⟨fun s => mem_freeLetters, freeLetters_decreasing next used⟩, fun s hs => ?_, fun hlen => ?_,
    fun s => ?_, fun f hf m hm => call_of_failed hf hm⟩
  · exact call_of_coming (by rw [coming_start]; exact hs)
  · rw [← coming_start] at hlen ⊢
    have hspent : ((start next used).after k).coming = [] := by
      rw [coming_after, List.drop_of_length_le hlen]
    have hcount := length_used_after (start next used) k
    rw [hspent, show (start next used).used = used.eraseDups from distinctOn_id_nil used] at hcount
    rw [call_of_length_le hlen, ← hcount]
    rfl
  · rw [mem_used_after, mem_used_start]

/-- Of the letters up to `D` one is in use, twice over; a symbol above them and one below `A` do not
    matter. -/
example : (List.range 5).map (start ⟨68⟩ (Body.ofText "CZC0")).call =
    [.ok ⟨68⟩, .ok ⟨66⟩, .ok ⟨65⟩, .error (exhausted 6), .error (exhausted 6)] := by rfl

end Allocator
end LetterGrammar
