import LetterGrammar.Native.Reader
import LetterGrammar.Proofs.Canonical
import LetterGrammar.Proofs.Native.File
import LetterGrammar.Proofs.Validation

/-!
# The texts that the native notation accepts

A text is accepted exactly when it splits into tokens, its marks have the form of a file, every head is
a single character, and the parts it describes form a grammar. The result is that grammar. Rules with
the same head are merged at the place of the first one, while the terminals of a file without a
declaration are found in the order of the text, across all rules.

## Contents

- **`described`**: the parts that a declaration and rules describe.
- **`grammar_eq_ok_iff`**: the grammar of a file is made of the parts it describes.
- **`read_of_form`**: a text of the form is read.
- **`read_ok_iff_splits_and_describes`**: the texts that are accepted, and what they are read as.
-/

namespace LetterGrammar
namespace Native

/-! ## What a file describes -/

/-- The body an alternative stands for. -/
def RuleBody.body (b : RuleBody) : Body := Body.ofText b.text

/-- The symbols of all bodies, in the order of the text. -/
def usedSymbols (clauses : List Clause) : List Symbol :=
  clauses.flatMap fun c => c.bodies.flatMap RuleBody.body

/-- The parts that a declaration and rules describe: the heads in the order of their first appearance,
    all bodies of all rules of a head in the order of the text, and the declared terminals or else the
    lower-case letters in the order of their first use. -/
def described (declared : Option (Option String)) (clauses : List Clause) : Parts where
  terminals := match declared with
    | some symbols => Body.ofText (symbols.getD "")
    | none => ((usedSymbols clauses).filter Symbol.isLower).eraseDups
  nonterminals := (clauses.map Clause.head).eraseDups.flatMap Body.ofText
  productions := (clauses.map Clause.head).eraseDups.map fun head =>
    (clauses.filter fun c => c.head = head).flatMap fun c => c.bodies.map RuleBody.body

/-! ## The parts of a file -/

variable {f : File} {declared : Option (Option String)} {clauses : List Clause}

/-- What depends on heads and alternatives only is the same for the rules of a file and for what they
    say. -/
theorem File.Says.map_eq {α : Type} (h : f.Says declared clauses) (F : String × List RuleBody → α) :
    (f.rules.map fun r => F r.parts) = clauses.map fun c => F c.parts := by
  have hmap := congrArg (List.map F) h.2
  rw [List.map_map, List.map_map] at hmap
  exact hmap

theorem heads_eq (h : f.Says declared clauses) : f.heads = (clauses.map Clause.head).eraseDups := by
  have hmap : f.rules.map Rule.head = clauses.map Clause.head := h.map_eq Prod.fst
  unfold File.heads
  rw [hmap, distinctOn_id_nil]

theorem flatMap_filter {α β : Type} (p : α → Bool) (F : α → List β) (l : List α) :
    (l.filter p).flatMap F = (l.map fun a => if p a then F a else []).flatten := by
  induction l with
  | nil => rfl
  | cons a l ih =>
      by_cases ha : p a = true
      · rw [List.filter_cons_of_pos ha, List.flatMap_cons, ih]
        simp [ha]
      · rw [List.filter_cons_of_neg ha, ih]
        simp [ha]

theorem bodiesOf_eq (h : f.Says declared clauses) (head : String) :
    (f.bodiesOf head).map Body.ofText
      = (clauses.filter fun c => c.head = head).flatMap fun c => c.bodies.map RuleBody.body := by
  -- a rule contributes its alternatives if it has the head, and else nothing
  have hmap := h.map_eq fun p => if decide (p.1 = head) = true then p.2.map RuleBody.body else []
  have hbodies : (f.bodiesOf head).map Body.ofText
      = (f.rules.filter fun r => r.head = head).flatMap fun r => r.bodies.map RuleBody.body := by
    unfold File.bodiesOf
    simp only [List.map_flatMap, List.map_map]
    rfl
  rw [hbodies, flatMap_filter, flatMap_filter]
  exact congrArg List.flatten hmap

/-- A character is a letter from `a` to `z` exactly when its symbol is a terminal. -/
theorem isLower_ofChar (c : Char) : (Symbol.ofChar c).isLower = ('a' ≤ c && c ≤ 'z') := by
  have hle : ∀ d e : Char, d ≤ e ↔ d.toNat ≤ e.toNat := fun _ _ => Iff.rfl
  rw [Bool.eq_iff_iff, Symbol.isLower_iff, Bool.and_eq_true, decide_eq_true_eq, decide_eq_true_eq, hle,
    hle]
  show (97 : Int) ≤ (c.toNat : Int) ∧ (c.toNat : Int) ≤ 122 ↔ 97 ≤ c.toNat ∧ c.toNat ≤ 122
  omega

theorem usedLetters_eq (h : f.Says declared clauses) :
    f.usedLetters.map Symbol.ofChar = ((usedSymbols clauses).filter Symbol.isLower).eraseDups := by
  have hinj : ∀ c d, Symbol.ofChar c = Symbol.ofChar d → c = d := fun c d heq => by
    rw [← Symbol.toChar_ofChar c, heq, Symbol.toChar_ofChar]
  have hlower : (fun c => decide ('a' ≤ c) && decide (c ≤ 'z')) = Symbol.isLower ∘ Symbol.ofChar :=
    funext fun c => (isLower_ofChar c).symm
  have hused : (f.rules.flatMap fun r => r.bodies.flatMap fun b => b.text.toList).map Symbol.ofChar
      = usedSymbols clauses := by
    have hmap := congrArg List.flatten (h.map_eq fun p => p.2.flatMap RuleBody.body)
    simp only [List.map_flatMap]
    exact hmap
  unfold File.usedLetters
  rw [distinctOn_id_nil, ← eraseDups_map hinj, hlower, ← List.filter_map, hused]

/-- The parts that a file is turned into are those it describes. -/
theorem parts_eq (h : f.Says declared clauses) :
    (⟨Body.ofText f.terminals, Body.ofText (String.join f.heads),
      (f.heads.map f.bodiesOf).map (·.map Body.ofText)⟩ : Parts) = described declared clauses := by
  unfold described
  congr 1
  · unfold File.terminals
    rw [h.1]
    cases declared with
    | none =>
        rw [← usedLetters_eq h]
        show Body.ofText (String.ofList f.usedLetters) = _
        rw [Body.ofText, String.toList_ofList]
    | some symbols => rfl
  · rw [Body.ofText, String.toList_join, heads_eq h, List.map_flatMap]
    rfl
  · rw [heads_eq h, List.map_map]
    exact List.map_congr_left fun head _ => bodiesOf_eq h head

theorem mapError_eq_ok_iff {α ε ε' : Type} {x : Except ε α} {F : ε → ε'} {a : α} :
    x.mapError F = .ok a ↔ x = .ok a := by
  cases x <;> simp [Except.mapError]

/-- **The grammar of a file** is made of the parts it describes, if its heads are single characters. -/
theorem grammar_eq_ok_iff (h : f.Says declared clauses) {g : Grammar} :
    f.grammar = .ok g ↔
      (∀ c ∈ clauses, c.head.length = 1) ∧ Grammar.build (described declared clauses) = .ok g := by
  have hmap : f.rules.map Rule.head = clauses.map Clause.head := h.map_eq Prod.fst
  have hheads : (∀ r ∈ f.rules, r.head.length = 1) ↔ ∀ c ∈ clauses, c.head.length = 1 := by
    have hall : (∀ s ∈ f.rules.map Rule.head, s.length = 1) ↔
        ∀ s ∈ clauses.map Clause.head, s.length = 1 := by rw [hmap]
    simpa only [List.forall_mem_map] using hall
  unfold File.grammar
  cases hfind : f.rules.find? fun r => r.head.length ≠ 1 with
  | some r =>
      have hlong : r.head.length ≠ 1 := by simpa using List.find?_some hfind
      constructor
      · intro hok
        cases hok
      · intro hall
        exact absurd (hheads.mpr hall.1 r (List.mem_of_find?_eq_some hfind)) hlong
  | none =>
      have hsingle : ∀ r ∈ f.rules, r.head.length = 1 := by simpa using hfind
      dsimp only
      rw [mapError_eq_ok_iff, Grammar.ofTexts, parts_eq h]
      exact ⟨fun hok => ⟨hheads.mp hsingle, hok⟩, fun hall => hall.2⟩

/-- A text of the form is read as the grammar it describes. -/
theorem read_of_form (filename : String) {text : List Glyph} {lexemes : List Lexeme} {g : Grammar}
    (hsplit : Splits text lexemes) (hmarks : lexemes.filterMap Lexeme.mark? = fileMarks declared clauses)
    (hheads : ∀ c ∈ clauses, c.head.length = 1)
    (hbuild : Grammar.build (described declared clauses) = .ok g) : read filename text = .ok g := by
  obtain ⟨f, hf, hsays⟩ := exists_read_of_form filename hsplit hmarks
  unfold read
  rw [hf]
  exact (grammar_eq_ok_iff hsays).mpr ⟨hheads, hbuild⟩

/-- **The texts that are accepted.** A text is read as a grammar exactly when it splits into tokens,
    whose marks have the form of a file, every head is a single character, and the grammar is the one
    with the parts so described. -/
theorem read_ok_iff_splits_and_describes (filename : String) (text : List Glyph) (g : Grammar) :
    read filename text = .ok g ↔
      ∃ lexemes declared clauses, Splits text lexemes ∧
        lexemes.filterMap Lexeme.mark? = fileMarks declared clauses ∧
        (∀ c ∈ clauses, c.head.length = 1) ∧
        Grammar.build (described declared clauses) = .ok g := by
  constructor
  · intro h
    unfold read at h
    split at h
    · cases h
    next f hf =>
    obtain ⟨lexemes, declared, clauses, hsplit, hmarks, hsays⟩ := exists_form_of_read hf
    exact ⟨lexemes, declared, clauses, hsplit, hmarks, (grammar_eq_ok_iff hsays).mp h⟩
  · rintro ⟨lexemes, declared, clauses, hsplit, hmarks, hheads, hbuild⟩
    exact read_of_form filename hsplit hmarks hheads hbuild

end Native
end LetterGrammar
