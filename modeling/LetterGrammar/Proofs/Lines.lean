import LetterGrammar.Proofs.Text

/-!
# Lines of a text

Listings and traces are written line by line. A text of lines that hold no line end can be cut into these
lines again, and letters hold no line end.

## Contents

- **`writeLines`**, **`textLines`**: lines written one under the other, and the lines of a text.
- **`textLines_writeLines`**: the lines of a written text.
- **`not_mem_intercalate`**: what a joined text holds.
- **`Symbol.IsLetter.ne_toChar`**, **`Body.not_mem_chars`**: what letters and bodies of letters print as.
-/

namespace LetterGrammar

/-- The lines one under the other, each with its end. -/
def writeLines (lines : List String) : String := String.join (lines.map (· ++ "\n"))

/-- The lines of a text: what stands before, between and behind the line ends. -/
def textLines (text : String) : List String := (text.toList.splitOn '\n').map String.ofList

theorem writeLines_cons (line : String) (lines : List String) :
    writeLines (line :: lines) = line ++ "\n" ++ writeLines lines := by
  unfold writeLines
  rw [List.map_cons, String.join_cons]

theorem writeLines_append (xs ys : List String) :
    writeLines (xs ++ ys) = writeLines xs ++ writeLines ys := by
  unfold writeLines
  rw [List.map_append, String.join_append]

/-- Line ends are separators, with an empty line behind the last one. -/
theorem toList_writeLines (lines : List String) :
    (writeLines lines).toList = ['\n'].intercalate (lines.map String.toList ++ [[]]) := by
  induction lines with
  | nil => rfl
  | cons line lines ih =>
    obtain ⟨next, rest, hrest⟩ := List.exists_cons_of_ne_nil
      (List.append_ne_nil_of_right_ne_nil (lines.map String.toList) (List.cons_ne_nil [] []))
    rw [writeLines_cons, String.toList_append, String.toList_append, ih, List.map_cons, List.cons_append,
      hrest, List.intercalate_cons_cons]
    rfl

/-- **A text of lines can be cut into these lines.** -/
theorem textLines_writeLines {lines : List String} (h : ∀ line ∈ lines, '\n' ∉ line.toList) :
    textLines (writeLines lines) = lines ++ [""] := by
  have hpieces : ∀ piece ∈ lines.map String.toList ++ [[]], '\n' ∉ piece :=
    List.forall_mem_append.mpr
      ⟨List.forall_mem_map.mpr h, List.forall_mem_singleton.mpr List.not_mem_nil⟩
  have hback : (lines.map String.toList).map String.ofList = lines := by
    rw [List.map_map]
    exact (List.map_congr_left fun line _ => String.ofList_toList).trans (List.map_id _)
  unfold textLines
  rw [toList_writeLines, List.splitOn_intercalate _ hpieces (by simp), List.map_append, hback]
  rfl

/-- A sign that is neither in a separator nor in a member is not in the joined text. -/
theorem not_mem_intercalate {sep : String} {members : List String} {c : Char} (hsep : c ∉ sep.toList)
    (h : ∀ x ∈ members, c ∉ x.toList) : c ∉ (String.intercalate sep members).toList := by
  induction members with
  | nil => exact List.not_mem_nil
  | cons x xs ih =>
    obtain ⟨hx, hxs⟩ := List.forall_mem_cons.mp h
    cases xs with
    | nil => exact hx
    | cons y ys =>
      rw [intercalate_cons_cons, String.toList_append, String.toList_append]
      simp only [List.mem_append, not_or]
      exact ⟨hx, hsep, ih hxs⟩

/-! ## Letters -/

theorem Symbol.IsLetter.isAlpha_toChar {s : Symbol} (h : s.IsLetter) : s.toChar.isAlpha = true := by
  rcases h with h | h
  · have hrange := Symbol.toChar_lower_iff.mpr h
    have hlower : s.toChar.isLower = true := Bool.and_eq_true_iff.mpr
      ⟨decide_eq_true hrange.1, decide_eq_true hrange.2⟩
    exact Bool.or_eq_true_iff.mpr (.inr hlower)
  · have hrange := Symbol.toChar_upper_iff.mpr h
    have hupper : s.toChar.isUpper = true := decide_eq_true hrange
    exact Bool.or_eq_true_iff.mpr (.inl hupper)

/-- A letter does not print as a sign that is no letter. -/
theorem Symbol.IsLetter.ne_toChar {s : Symbol} (h : s.IsLetter) {c : Char} (hc : c.isAlpha = false) :
    c ≠ s.toChar := by
  intro heq
  rw [heq, h.isAlpha_toChar] at hc
  cases hc

/-- A sign that is no letter does not occur in a body of letters. -/
theorem Body.not_mem_chars {b : Body} (h : ∀ s ∈ b, s.IsLetter) {c : Char} (hc : c.isAlpha = false) :
    c ∉ b.chars := by
  intro hmem
  obtain ⟨s, hs, heq⟩ := List.mem_map.mp hmem
  exact (h s hs).ne_toChar hc heq.symm

end LetterGrammar
