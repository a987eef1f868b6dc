import LetterGrammar.Native.Token
import Mathlib.Data.List.TakeWhile

/-!
# How a text splits into tokens

A text splits into tokens when it is a row of lexemes, each as long as its class allows. Every class
starts with characters of its own, so the order in which the classes are tried does not matter, and
whether a lexeme can be longer is decided by the next character.

## Contents

- **`TokenClass.Spelled`**: the texts of a class.
- **`TokenClass.Longest`**, **`longest_iff`**: a lexeme that cannot be longer.
- **`lexeme?_longest`**, **`Longest.lexeme?_eq`**: the lexeme at the head of a text is the longest one.
- **`Splits`**: a text as a row of lexemes.
- **`splits_of_tokenize`**, **`Splits.exists_tokenize`**: the tokens of a text.
-/

namespace LetterGrammar
namespace Native

/-! ## Lexemes -/

/-- The texts of a class of tokens. -/
def TokenClass.Spelled : TokenClass → List Char → Prop
  | .comment, cs => ∃ rest, cs = '#' :: rest ∧ ∀ d ∈ rest, d ≠ '\n'
  | .blank, cs => cs ≠ [] ∧ ∀ d ∈ cs, isBlank d = true
  | .arrow, cs => cs = ['-', '>'] ∨ cs = ['→']
  | .epsilon, cs => cs = ['ε'] ∨ cs = ['&']
  | .ident, cs => ∃ c rest, cs = c :: rest ∧ isIdentStart c = true ∧ ∀ d ∈ rest, isIdentPart d = true
  | .punct, cs => cs = ['|'] ∨ cs = [':'] ∨ cs = [';']

/-- The text is of the class, and with any more of what follows it would not be. -/
def TokenClass.Longest (kind : TokenClass) (cs rest : List Char) : Prop :=
  kind.Spelled cs ∧ ∀ more, more ≠ [] → more <+: rest → ¬ kind.Spelled (cs ++ more)

/-- The character can follow in any text of the class. -/
def TokenClass.continues : TokenClass → Char → Bool
  | .comment, d => d ≠ '\n'
  | .blank, d => isBlank d
  | .ident, d => isIdentPart d
  | .arrow, _ => false
  | .epsilon, _ => false
  | .punct, _ => false

variable {kind : TokenClass} {cs rest : List Char}

theorem TokenClass.Spelled.ne_nil (h : kind.Spelled cs) : cs ≠ [] := by
  rintro rfl
  cases kind <;> simp [Spelled] at h

/-- Where no character can follow, nothing does. -/
theorem forall_continues_false (hfix : ∀ d, kind.continues d = false) {more : List Char} :
    (∀ d ∈ more, kind.continues d = true) ↔ more = [] := by
  cases more with
  | nil => simp
  | cons d more => simp [hfix d]

/-- A text of a class can be continued by characters of one kind only. -/
theorem spelled_append_iff (h : kind.Spelled cs) {more : List Char} :
    kind.Spelled (cs ++ more) ↔ ∀ d ∈ more, kind.continues d = true := by
  cases kind with
  | comment =>
      obtain ⟨body, rfl, hbody⟩ := h
      simp only [TokenClass.Spelled, TokenClass.continues, List.cons_append, List.cons.injEq, true_and,
        exists_eq_left', List.forall_mem_append, decide_eq_true_eq]
      exact and_iff_right hbody
  | blank =>
      obtain ⟨hne, hall⟩ := h
      simp only [TokenClass.Spelled, TokenClass.continues, List.forall_mem_append]
      exact ⟨fun hm => hm.2.2, fun hm => ⟨by simp [hne], hall, hm⟩⟩
  | ident =>
      obtain ⟨c, body, rfl, hc, hbody⟩ := h
      simp only [TokenClass.Spelled, TokenClass.continues, List.cons_append]
      constructor
      · rintro ⟨c', body', heq, _, hall⟩ d hd
        injection heq with _ heq
        exact hall d (heq ▸ List.mem_append_right body hd)
      · exact fun hm => ⟨c, body ++ more, rfl, hc, List.forall_mem_append.mpr ⟨hbody, hm⟩⟩
  | arrow =>
      rw [forall_continues_false fun _ => rfl]
      rcases h with rfl | rfl <;> simp [TokenClass.Spelled]
  | epsilon =>
      rw [forall_continues_false fun _ => rfl]
      rcases h with rfl | rfl <;> simp [TokenClass.Spelled]
  | punct =>
      rw [forall_continues_false fun _ => rfl]
      rcases h with rfl | rfl | rfl <;> simp [TokenClass.Spelled]

/-- **Whether a lexeme can be longer is decided by the next character.** -/
theorem longest_iff :
    kind.Longest cs rest ↔ kind.Spelled cs ∧ ∀ d, rest.head? = some d → kind.continues d = false := by
  refine and_congr_right fun hcs => ⟨fun hlong d hd => ?_, fun hend more hne hpre hmore => ?_⟩
  · obtain ⟨rest', rfl⟩ := List.head?_eq_some_iff.mp hd
    apply Bool.eq_false_iff.mpr
    intro hcont
    refine hlong [d] (by simp) ⟨rest', rfl⟩ ((spelled_append_iff hcs).mpr ?_)
    exact List.forall_mem_singleton.mpr hcont
  · obtain ⟨d, more, rfl⟩ := List.exists_cons_of_ne_nil hne
    obtain ⟨tail, rfl⟩ := hpre
    have hd := (spelled_append_iff hcs).mp hmore d List.mem_cons_self
    rw [hend d rfl] at hd
    exact Bool.noConfusion hd

/-! ## First characters -/

/-- The first characters of a class; a name starts with any of a range of characters. -/
def TokenClass.signs : TokenClass → List Char
  | .comment => ['#']
  | .blank => [' ', '\t', '\n', '\x0c', '\r']
  | .arrow => ['-', '→']
  | .epsilon => ['ε', '&']
  | .ident => []
  | .punct => ['|', ':', ';']

theorem isBlank_iff {c : Char} : isBlank c = true ↔ c ∈ TokenClass.blank.signs := by
  simp [isBlank, TokenClass.signs, or_assoc]

/-- A class other than that of names shows at its first character. -/
theorem TokenClass.Spelled.mem_signs {c : Char} {body : List Char} (h : kind.Spelled (c :: body))
    (hkind : kind ≠ .ident) : c ∈ kind.signs := by
  cases kind with
  | ident => exact absurd rfl hkind
  | comment =>
      obtain ⟨_, heq, _⟩ := h
      simp [signs, (List.cons.inj heq).1]
  | blank => exact isBlank_iff.mp (h.2 c List.mem_cons_self)
  | arrow => rcases h with heq | heq <;> simp [signs, (List.cons.inj heq).1]
  | epsilon => rcases h with heq | heq <;> simp [signs, (List.cons.inj heq).1]
  | punct => rcases h with heq | heq | heq <;> simp [signs, (List.cons.inj heq).1]

/-- No name goes on with the first character of another class. -/
theorem isIdentPart_of_mem_signs {c : Char} (h : c ∈ kind.signs) : isIdentPart c = false := by
  have hall : (kind.signs.all fun c => !isIdentPart c) = true := by cases kind <;> decide
  simpa using List.all_eq_true.mp hall c h

theorem isIdentPart_of_isIdentStart {c : Char} (h : isIdentStart c = true) : isIdentPart c = true := by
  simp [isIdentPart, h]

theorem isBlank_of_isIdentStart {c : Char} (h : isIdentStart c = true) : isBlank c = false := by
  apply Bool.eq_false_iff.mpr
  intro hblank
  have hpart := isIdentPart_of_mem_signs (isBlank_iff.mp hblank)
  rw [isIdentPart_of_isIdentStart h] at hpart
  cases hpart

/-- Only blanks start with a blank. -/
theorem TokenClass.Spelled.isBlank_head {c : Char} {body : List Char} (h : kind.Spelled (c :: body))
    (hkind : kind ≠ .blank) : isBlank c = false := by
  by_cases hident : kind = .ident
  · subst hident
    obtain ⟨c', _, heq, hc, _⟩ := h
    rw [(List.cons.inj heq).1]
    exact isBlank_of_isIdentStart hc
  · have hall : (kind.signs.all fun c => !isBlank c) = true := by
      cases kind with
      | blank => exact absurd rfl hkind
      | _ => decide
    simpa using List.all_eq_true.mp hall c (h.mem_signs hident)

/-! ## The lexeme at the head of a text -/

section TakeWhile

variable {p : Char → Bool} {body : List Char}

/-- A run of characters ends where the next one is of another kind. -/
theorem takeWhile_eq_of_boundary (hbody : ∀ d ∈ body, p d = true)
    (hend : ∀ d, rest.head? = some d → p d = false) : (body ++ rest).takeWhile p = body := by
  rw [List.takeWhile_append_of_pos hbody]
  cases rest with
  | nil => simp
  | cons d rest => simp [hend d rfl]

theorem take_length_takeWhile (l : List Char) : l.take (l.takeWhile p).length = l.takeWhile p :=
  (List.prefix_iff_eq_take.mp (List.takeWhile_prefix p)).symm

theorem head?_drop_takeWhile {l : List Char} {d : Char}
    (h : (l.drop (l.takeWhile p).length).head? = some d) : p d = false := by
  induction l with
  | nil => simp at h
  | cons c l ih =>
      rw [List.takeWhile_cons] at h
      by_cases hc : p c = true
      · rw [if_pos hc, List.length_cons, List.drop_succ_cons] at h
        exact ih h
      · rw [if_neg hc] at h
        have hcd : c = d := by simpa using h
        rw [← hcd]
        exact Bool.eq_false_iff.mpr hc

end TakeWhile

/-- A lexeme that takes all characters of a kind is longest. -/
theorem longest_of_run (kind : TokenClass) {c : Char} (l : List Char)
    (h : kind.Spelled (c :: l.takeWhile kind.continues)) :
    kind.Longest (c :: l.take (l.takeWhile kind.continues).length)
      (l.drop (l.takeWhile kind.continues).length) := by
  apply longest_iff.mpr
  rw [take_length_takeWhile]
  exact ⟨h, fun d hd => head?_drop_takeWhile hd⟩

/-- A lexeme of a fixed spelling is longest. -/
theorem longest_of_fixed (h : kind.Spelled cs) (hfix : ∀ d, kind.continues d = false) :
    kind.Longest cs rest :=
  longest_iff.mpr ⟨h, fun d _ => hfix d⟩

/-- **The lexeme found at the head of a text is the longest one there.** -/
theorem lexeme?_longest {c : Char} {n : Nat} (h : lexeme? c rest = some (kind, n)) :
    kind.Longest (c :: rest.take n) (rest.drop n) := by
  unfold lexeme? at h
  split at h
  · next hc =>
    cases h
    refine longest_of_run .comment rest ⟨_, by rw [hc], fun d hd => ?_⟩
    simpa [TokenClass.continues] using List.mem_takeWhile_imp hd
  split at h
  · next hc =>
    cases h
    refine longest_of_run .blank rest ⟨by simp, List.forall_mem_cons.mpr ⟨hc, ?_⟩⟩
    exact fun d hd => List.mem_takeWhile_imp hd
  split at h
  · next hc =>
    cases h
    rw [hc]
    exact longest_of_fixed (Or.inr rfl) fun _ => rfl
  split at h
  · next hc =>
    cases h
    rw [Bool.and_eq_true, decide_eq_true_eq, decide_eq_true_eq] at hc
    obtain ⟨rest', rfl⟩ := List.head?_eq_some_iff.mp hc.2
    rw [hc.1]
    exact longest_of_fixed (Or.inl rfl) fun _ => rfl
  split at h
  · next hc =>
    cases h
    apply longest_of_fixed _ fun _ => rfl
    simpa [TokenClass.Spelled] using hc
  split at h
  · next hc =>
    cases h
    exact longest_of_run .ident rest ⟨c, _, rfl, hc, fun d hd => List.mem_takeWhile_imp hd⟩
  split at h
  · next hc =>
    cases h
    apply longest_of_fixed _ fun _ => rfl
    simpa [TokenClass.Spelled, or_assoc] using hc
  · cases h

/-- **The longest lexeme at the head of a text is the one that is found**, whatever its class: no two
    classes share a first character. -/
theorem TokenClass.Longest.lexeme?_eq {c : Char} {body : List Char} (h : kind.Longest (c :: body) rest) :
    lexeme? c (body ++ rest) = some (kind, body.length) := by
  obtain ⟨hspell, hend⟩ := longest_iff.mp h
  cases kind with
  | comment =>
      obtain ⟨body', heq, hbody⟩ := hspell
      injection heq with hc hb
      subst hc hb
      have hrun : (body ++ rest).takeWhile (· ≠ '\n') = body :=
        takeWhile_eq_of_boundary (by simpa using hbody) hend
      unfold lexeme?
      rw [if_pos rfl, hrun]
  | blank =>
      obtain ⟨hc, hbody⟩ := List.forall_mem_cons.mp hspell.2
      have hhash : c ≠ '#' := by
        rintro rfl
        exact absurd hc (by decide)
      have hrun := takeWhile_eq_of_boundary hbody hend
      unfold lexeme?
      rw [if_neg hhash, if_pos hc]
      exact congrArg (fun l => some (TokenClass.blank, List.length l)) hrun
  | arrow =>
      rcases hspell with heq | heq
      · injection heq with hc hb
        subst hc hb
        rfl
      · injection heq with hc hb
        subst hc hb
        rfl
  | epsilon =>
      rcases hspell with heq | heq
      · injection heq with hc hb
        subst hc hb
        rfl
      · injection heq with hc hb
        subst hc hb
        rfl
  | ident =>
      obtain ⟨c', body', heq, hc, hbody⟩ := hspell
      injection heq with hcc hb
      subst hcc hb
      have hrun := takeWhile_eq_of_boundary hbody hend
      -- the first character of a name starts no other lexeme
      have hne : ∀ x, isIdentStart x = false → c ≠ x := by
        rintro x hx rfl
        exact absurd hc (by rw [hx]; decide)
      unfold lexeme?
      rw [if_neg (hne '#' (by decide)), if_neg (by rw [isBlank_of_isIdentStart hc]; decide),
        if_neg (hne '→' (by decide)),
        if_neg (by simp [hne '-' (by decide)]),
        if_neg (by simp [hne 'ε' (by decide), hne '&' (by decide)]), if_pos hc]
      exact congrArg (fun l => some (TokenClass.ident, List.length l)) hrun
  | punct =>
      rcases hspell with heq | heq | heq
      all_goals
        injection heq with hc hb
        subst hc hb
        rfl

/-! ## Rows of lexemes -/

/-- A lexeme: the class and the text of a token, wherever it stands. -/
structure Lexeme where
  kind : TokenClass
  text : String
deriving DecidableEq

/-- The lexeme of a token. -/
def Token.lexeme (t : Token) : Lexeme := ⟨t.kind, t.text⟩

/-- The text splits completely into the lexemes, each as long as its class allows. -/
inductive Splits : List Glyph → List Lexeme → Prop
  | nil : Splits [] []
  | cons {kind : TokenClass} {taken rest : List Glyph} {ls : List Lexeme}
      (hlong : kind.Longest (taken.map Glyph.char) (rest.map Glyph.char)) (hrest : Splits rest ls) :
      Splits (taken ++ rest) (⟨kind, Glyph.text taken⟩ :: ls)

/-- What a token costs: the lexeme at the head is cut off, and the rest is cut into tokens. -/
theorem tokenize_cons_eq_ok_iff {place last : Position} {g : Glyph} {rest : List Glyph}
    {tokens : List Token} :
    tokenize place (g :: rest) = .ok (tokens, last) ↔
      ∃ kind n more, lexeme? g.char (rest.map Glyph.char) = some (kind, n) ∧
        tokenize ((g :: rest.take n).foldl advance place) (rest.drop n) = .ok (more, last) ∧
        tokens = ⟨kind, Glyph.text (g :: rest.take n), place⟩ :: more := by
  rw [tokenize]
  cases hlex : lexeme? g.char (rest.map Glyph.char) with
  | none => simp
  | some found =>
      obtain ⟨kind, n⟩ := found
      cases hmore : tokenize ((g :: rest.take n).foldl advance place) (rest.drop n) with
      | error f =>
          simp only [hmore]
          constructor
          · intro h
            cases h
          · rintro ⟨_, _, _, hkn, hok, _⟩
            cases hkn
            rw [hmore] at hok
            cases hok
      | ok found =>
          obtain ⟨more, last'⟩ := found
          simp only [hmore]
          constructor
          · intro h
            cases h
            exact ⟨kind, n, more, rfl, hmore, rfl⟩
          · rintro ⟨_, _, _, hkn, hok, rfl⟩
            cases hkn
            rw [hmore] at hok
            cases hok
            rfl

/-- The tokens of a text are lexemes it splits into. -/
theorem splits_of_tokenize {place : Position} {text : List Glyph} {tokens : List Token}
    {last : Position} (h : tokenize place text = .ok (tokens, last)) :
    Splits text (tokens.map Token.lexeme) := by
  induction hlen : text.length using Nat.strongRecOn generalizing place text tokens with
  | ind len ih =>
      subst hlen
      cases text with
      | nil =>
          rw [tokenize] at h
          cases h
          exact .nil
      | cons g rest =>
          obtain ⟨kind, n, more, hlex, hmore, rfl⟩ := tokenize_cons_eq_ok_iff.mp h
          have hlong := lexeme?_longest hlex
          rw [← List.map_take, ← List.map_drop, ← List.map_cons] at hlong
          have hlt : (rest.drop n).length < (g :: rest).length := by
            rw [List.length_drop, List.length_cons]
            omega
          have hsplit := Splits.cons hlong (ih _ hlt hmore rfl)
          rw [List.cons_append, List.take_append_drop] at hsplit
          exact hsplit

/-- A text that splits into lexemes has them for its tokens. -/
theorem Splits.exists_tokenize {text : List Glyph} {ls : List Lexeme} (h : Splits text ls)
    (place : Position) :
    ∃ tokens last, tokenize place text = .ok (tokens, last) ∧ tokens.map Token.lexeme = ls := by
  induction h generalizing place with
  | nil => exact ⟨[], place, by rw [tokenize], rfl⟩
  | @cons kind taken rest ls hlong _ ih =>
      obtain ⟨g, tail, rfl⟩ : ∃ g tail, taken = g :: tail := by
        apply List.exists_cons_of_ne_nil
        rintro rfl
        exact hlong.1.ne_nil rfl
      obtain ⟨tokens, last, hok, hls⟩ := ih ((g :: tail).foldl advance place)
      refine ⟨⟨kind, Glyph.text (g :: tail), place⟩ :: tokens, last, ?_, by rw [List.map_cons, hls]; rfl⟩
      rw [List.map_cons] at hlong
      have hlex := hlong.lexeme?_eq
      rw [List.length_map, ← List.map_append] at hlex
      rw [List.cons_append]
      apply tokenize_cons_eq_ok_iff.mpr
      exact ⟨kind, tail.length, tokens, hlex, by rwa [List.take_left, List.drop_left],
        by rw [List.take_left]⟩

end Native
end LetterGrammar
