import LetterGrammar.Proofs.Validation
import Mathlib.Data.List.Nodup

/-!
# Texts of symbols and bodies

What is printed and spelled again is the same, as long as it is made of characters. Texts are put
together with separators; here they are taken apart again.

## Contents

- **`Glyph.map_char_ofString`**, **`Glyph.text_ofString`**: the characters of the glyphs of a text.
- **`Symbol.IsLetter`**: terminals and nonterminals, which print as letters.
- **`Symbol.ofText_text`**, **`Body.ofText_text`**: what is printed is spelled as before.
- **`Parts.WellFormed.entry_letter`**: the bodies of well-formed parts are made of letters.
- **`intercalate_cons`**: a list with separators, from its first member on.
- **`filter_key_eq_singleton`**: a key that belongs to one member.
-/

namespace LetterGrammar

/-! ## Glyphs of a text -/

namespace Glyph

theorem size_pos (g : Glyph) : 0 < g.size := by
  cases g with
  | scalar c => exact Char.utf8Size_pos c
  | stray b => exact Nat.one_pos

@[simp] theorem ofString_append (s t : String) : ofString (s ++ t) = ofString s ++ ofString t := by
  unfold ofString
  rw [String.toList_append, List.map_append]

@[simp] theorem map_char_ofString (s : String) : (ofString s).map char = s.toList := by
  unfold ofString
  rw [List.map_map]
  exact List.map_id _

theorem ofString_join (l : List String) : ofString (String.join l) = l.flatMap ofString := by
  unfold ofString
  rw [String.toList_join, List.map_flatMap]

@[simp] theorem text_ofString (s : String) : text (ofString s) = s := by
  unfold text
  rw [map_char_ofString, String.ofList_toList]

end Glyph

/-! ## Printed symbols and bodies -/

namespace Symbol

@[simp] theorem toList_text (s : Symbol) : s.text.toList = [s.toChar] :=
  String.toList_singleton s.toChar

theorem ofText_text {s : Symbol} (h : s.IsScalar) : Body.ofText s.text = [s] := by
  obtain ⟨c, rfl⟩ := h
  rw [Body.ofText, toList_text, toChar_ofChar]
  rfl

theorem IsScalar.text_inj {s s' : Symbol} (hs : s.IsScalar) (hs' : s'.IsScalar)
    (h : s.text = s'.text) : s = s' := by
  have hbody : [s] = [s'] := by rw [← ofText_text hs, h, ofText_text hs']
  exact List.singleton_inj.mp hbody

/-- The symbol is a letter: a terminal or a nonterminal. -/
def IsLetter (s : Symbol) : Prop := s.isLower = true ∨ s.isUpper = true

theorem IsLetter.isScalar {s : Symbol} (h : s.IsLetter) : s.IsScalar := by
  rcases h with h | h
  · exact isScalar_of_isLower h
  · exact isScalar_of_isUpper h

theorem toChar_lower_iff {s : Symbol} : ('a' ≤ s.toChar ∧ s.toChar ≤ 'z') ↔ s.isLower = true := by
  rw [s.toChar_mem_range_iff (by decide) (by decide), isLower_iff]
  rfl

theorem toChar_upper_iff {s : Symbol} : ('A' ≤ s.toChar ∧ s.toChar ≤ 'Z') ↔ s.isUpper = true := by
  rw [s.toChar_mem_range_iff (by decide) (by decide), isUpper_iff]
  rfl

end Symbol

namespace Body

@[simp] theorem toList_text (b : Body) : b.text.toList = b.chars := String.toList_ofList

theorem text_singleton (s : Symbol) : s.text = text [s] := by
  apply String.toList_inj.mp
  rw [Symbol.toList_text, toList_text]
  rfl

theorem ofText_text {b : Body} (h : b.IsScalar) : ofText b.text = b := by
  unfold ofText
  rw [toList_text, map_ofChar_chars h]

theorem text_ofText (s : String) : text (ofText s) = s := by
  apply String.toList_inj.mp
  rw [toList_text, chars, ofText, List.map_map]
  exact (List.map_congr_left fun c _ => Symbol.toChar_ofChar c).trans (List.map_id _)

end Body

/-! ## The entries of well-formed parts -/

namespace Parts.WellFormed

section

variable {p : Parts} (hp : p.WellFormed)
include hp

theorem map_fst_entries : p.entries.map Prod.fst = p.nonterminals :=
  List.map_fst_zip (Nat.le_of_eq hp.count.symm)

theorem map_snd_entries : p.entries.map Prod.snd = p.productions :=
  List.map_snd_zip (Nat.le_of_eq hp.count)

theorem isScalar_nonterminal {s : Symbol} (h : s ∈ p.nonterminals) : s.IsScalar :=
  Symbol.isScalar_of_isUpper (hp.nonterminals_upper s h)

/-- No two nonterminals print alike. -/
theorem nodup_text : (p.nonterminals.map Symbol.text).Nodup := by
  apply List.Nodup.map_on _ hp.nonterminals_nodup
  intro s hs s' hs' htext
  exact (hp.isScalar_nonterminal hs).text_inj (hp.isScalar_nonterminal hs') htext

end

variable {p : Parts} (hp : p.WellFormed) {e : Symbol × List Body} (he : e ∈ p.entries)
include hp he

theorem entry_upper : e.1.isUpper = true :=
  hp.nonterminals_upper e.1 (List.of_mem_zip he).1

theorem entry_ne_nil : e.2 ≠ [] :=
  hp.sets_nonempty e.2 (List.of_mem_zip he).2

/-- The bodies are made of letters. -/
theorem entry_letter {b : Body} (hb : b ∈ e.2) : ∀ s ∈ b, s.IsLetter := by
  intro s hs
  rcases hp.declared e.2 (List.of_mem_zip he).2 b hb s hs with hterm | hnon
  · exact Or.inl (hp.terminals_lower s hterm)
  · exact Or.inr (hp.nonterminals_upper s hnon)

end Parts.WellFormed

/-! ## Lists with separators and keys -/

theorem intercalate_cons_cons (sep x y : String) (ys : List String) :
    sep.intercalate (x :: y :: ys) = x ++ (sep ++ sep.intercalate (y :: ys)) := by
  apply String.toList_inj.mp
  rw [String.toList_intercalate, List.map_cons, List.map_cons, List.intercalate_cons_cons,
    ← List.map_cons, ← String.toList_intercalate]
  simp

/-- A list with separators is its first member, and then each other one behind a separator. -/
theorem intercalate_cons (sep x : String) (xs : List String) :
    sep.intercalate (x :: xs) = x ++ String.join (xs.map (sep ++ ·)) := by
  induction xs generalizing x with
  | nil => simp
  | cons y ys ih =>
      rw [intercalate_cons_cons, ih, List.map_cons, String.join_cons, String.append_assoc]

/-- Where no two members share a key, a key finds one member. -/
theorem filter_key_eq_singleton {α κ : Type} [DecidableEq κ] {key : α → κ} {l : List α}
    (hnd : (l.map key).Nodup) {a : α} (ha : a ∈ l) : (l.filter fun b => key b = key a) = [a] := by
  induction l with
  | nil => exact absurd ha List.not_mem_nil
  | cons x l ih =>
      rw [List.map_cons, List.nodup_cons] at hnd
      rw [List.filter_cons]
      rcases List.mem_cons.mp ha with rfl | hal
      · have hnone : (l.filter fun b => key b = key a) = [] := by
          apply List.filter_eq_nil_iff.mpr
          intro b hb hkey
          exact hnd.1 (of_decide_eq_true hkey ▸ List.mem_map_of_mem hb)
        rw [if_pos (decide_eq_true rfl), hnone]
      · have hne : key x ≠ key a := fun hkey => hnd.1 (hkey ▸ List.mem_map_of_mem hal)
        rw [if_neg (by simpa using hne)]
        exact ih hnd.2 hal

end LetterGrammar
