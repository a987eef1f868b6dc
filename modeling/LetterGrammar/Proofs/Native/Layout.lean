import LetterGrammar.Proofs.Native.File
import LetterGrammar.Proofs.Text

/-!
# Layouts of a text

Marks can be written down in many ways: an arrow and the empty body have two spellings each, and between
any two marks there may be a gap of blanks and comments. Only two names in a row need a gap. Whatever the
layout, the text splits into tokens with these marks.

## Contents

- **`IsGap`**: blanks and comments, each comment with the end of its line.
- **`Lexeme.Spells`**: a spelling of a mark.
- **`LaidOut`**: a text with given marks.
- **`Variant`**: two layouts of the same marks.
- **`LaidOut.indent`**, **`LaidOut.mark`**, **`LaidOut.spaced`**: a layout with a blank or a mark before it.
- **`LaidOut.exists_splits`**, **`Splits.unique`**: the marks of a layout are those of its tokens.
-/

namespace LetterGrammar
namespace Native

/-! ## Gaps and layouts -/

/-- White space and comments, each comment ended by a line break. -/
inductive IsGap : List Glyph → Prop
  | nil : IsGap []
  | blank {b : Glyph} {gap : List Glyph} (hb : isBlank b.char = true) (hgap : IsGap gap) :
      IsGap (b :: gap)
  | comment {body gap : List Glyph} (hbody : ∀ g ∈ body, g.char ≠ '\n') (hgap : IsGap gap) :
      IsGap (.scalar '#' :: body ++ .scalar '\n' :: gap)

/-- The lexeme is a spelling of the mark. -/
def Lexeme.Spells (l : Lexeme) (m : Mark) : Prop :=
  l.kind.Spelled l.text.toList ∧ l.mark? = some m

/-- The mark is a name. -/
def Mark.isIdent : Mark → Bool
  | .ident _ => true
  | _ => false

/-- The text is a layout of the marks: each in one of its spellings, with gaps before, between and after
    them. A gap may be empty unless it stands between two names; `named` says that a name stands before
    the text. -/
inductive LaidOut : Bool → List Mark → List Glyph → Prop
  | nil {named : Bool} {gap : List Glyph} (hgap : IsGap gap) : LaidOut named [] gap
  | cons {named : Bool} {m : Mark} {ms : List Mark} {gap rest : List Glyph} {l : Lexeme}
      (hgap : IsGap gap) (hapart : named = true → m.isIdent = true → gap ≠ []) (hl : l.Spells m)
      (hrest : LaidOut m.isIdent ms rest) : LaidOut named (m :: ms) (gap ++ Glyph.ofString l.text ++ rest)

/-- The texts are layouts of the same marks. -/
def Variant (text text' : List Glyph) : Prop :=
  ∃ ms, LaidOut false ms text ∧ LaidOut false ms text'

variable {named : Bool} {m : Mark} {ms : List Mark} {text gap : List Glyph} {ls : List Lexeme}

/-! ## Longer layouts -/

section

variable {rest : List Glyph} {l : Lexeme}

/-- A blank may stand before any layout, also after a name. -/
theorem LaidOut.indent {b : Glyph} (hb : isBlank b.char = true) {named' : Bool}
    (h : LaidOut named ms rest) : LaidOut named' ms (b :: rest) := by
  cases h with
  | nil hgap => exact .nil (hgap.blank hb)
  | cons hgap _ hl hrest => exact .cons (hgap.blank hb) (fun _ _ => by simp) hl hrest

/-- A mark that is written without a gap: not both it and what stands before it are names. -/
theorem LaidOut.mark (hapart : (named && m.isIdent) = false) (hl : l.Spells m)
    (h : LaidOut m.isIdent ms rest) : LaidOut named (m :: ms) (Glyph.ofString l.text ++ rest) := by
  refine .cons .nil (fun hn hm => ?_) hl h
  rw [hn, hm] at hapart
  cases hapart

/-- A mark after a blank. -/
theorem LaidOut.spaced (hl : l.Spells m) (h : LaidOut m.isIdent ms rest) :
    LaidOut named (m :: ms) (.scalar ' ' :: (Glyph.ofString l.text ++ rest)) :=
  (LaidOut.mark rfl hl h : LaidOut false _ _).indent (by decide)

end

/-! ## Spellings -/

theorem Lexeme.Spells.kind_eq_ident_iff {l : Lexeme} (h : l.Spells m) :
    l.kind = .ident ↔ m.isIdent = true := by
  obtain ⟨kind, text⟩ := l
  obtain ⟨_, hm⟩ := h
  cases kind <;> simp [Lexeme.mark?] at hm
  all_goals
    subst hm
    simp [Mark.isIdent]

/-- A spelling ends where no name can go on, unless the mark is no name. -/
theorem Lexeme.Spells.longest {l : Lexeme} (h : l.Spells m) {rest : List Char}
    (hend : m.isIdent = true → ∀ d, rest.head? = some d → isIdentPart d = false) :
    l.kind.Longest l.text.toList rest := by
  apply longest_iff.mpr
  refine ⟨h.1, fun d hd => ?_⟩
  have hident := h.kind_eq_ident_iff
  obtain ⟨kind, text⟩ := l
  cases kind with
  | ident => exact hend (hident.mp rfl) d hd
  | comment => exact absurd h.2 (by simp [Lexeme.mark?])
  | blank => exact absurd h.2 (by simp [Lexeme.mark?])
  | arrow => rfl
  | epsilon => rfl
  | punct => rfl

/-! ## A gap says nothing -/

/-- One more blank before a text changes no mark: it joins the blanks that stand there, or is a lexeme
    of its own. -/
theorem Splits.indent {b : Glyph} (hb : isBlank b.char = true) (h : Splits text ls) :
    ∃ ls', Splits (b :: text) ls' ∧ ls'.filterMap Lexeme.mark? = ls.filterMap Lexeme.mark? := by
  have halone : TokenClass.blank.Spelled [b.char] := ⟨by simp, by simpa using hb⟩
  cases h with
  | nil =>
      have hlong : TokenClass.blank.Longest ([b].map Glyph.char) (([] : List Glyph).map Glyph.char) :=
        longest_iff.mpr ⟨halone, by simp⟩
      exact ⟨[⟨.blank, Glyph.text [b]⟩], .cons hlong .nil, rfl⟩
  | @cons kind taken rest ls hlong hrest =>
      obtain ⟨hspell, hend⟩ := longest_iff.mp hlong
      by_cases hkind : kind = .blank
      · subst hkind
        have hjoined : TokenClass.blank.Longest ((b :: taken).map Glyph.char) (rest.map Glyph.char) :=
          longest_iff.mpr ⟨⟨by simp, List.forall_mem_cons.mpr ⟨hb, hspell.2⟩⟩, hend⟩
        exact ⟨⟨.blank, Glyph.text (b :: taken)⟩ :: ls, .cons hjoined hrest, rfl⟩
      · -- the lexeme that follows does not start with a blank
        have hstop : ∀ d, ((taken ++ rest).map Glyph.char).head? = some d → isBlank d = false := by
          intro d hd
          cases taken with
          | nil => exact absurd rfl hspell.ne_nil
          | cons g taken =>
              have hgd : g.char = d := by simpa using hd
              rw [← hgd]
              exact hspell.isBlank_head hkind
        have hown : TokenClass.blank.Longest ([b].map Glyph.char) ((taken ++ rest).map Glyph.char) :=
          longest_iff.mpr ⟨halone, hstop⟩
        exact ⟨⟨.blank, Glyph.text [b]⟩ :: ⟨kind, Glyph.text taken⟩ :: ls,
          .cons hown (.cons hlong hrest), rfl⟩

/-- A gap before a text changes no mark. -/
theorem Splits.widen (hgap : IsGap gap) (h : Splits text ls) :
    ∃ ls', Splits (gap ++ text) ls' ∧ ls'.filterMap Lexeme.mark? = ls.filterMap Lexeme.mark? := by
  induction hgap with
  | nil => exact ⟨ls, h, rfl⟩
  | blank hb _ ih =>
      obtain ⟨ls₁, h₁, hm₁⟩ := ih
      obtain ⟨ls₂, h₂, hm₂⟩ := h₁.indent hb
      exact ⟨ls₂, h₂, hm₂.trans hm₁⟩
  | @comment body gap hbody _ ih =>
      -- the line break ends the comment and is a blank before what follows
      obtain ⟨ls₁, h₁, hm₁⟩ := ih
      obtain ⟨ls₂, h₂, hm₂⟩ := h₁.indent (b := .scalar '\n') (by decide)
      have hlong : TokenClass.comment.Longest ((Glyph.scalar '#' :: body).map Glyph.char)
          ((Glyph.scalar '\n' :: (gap ++ text)).map Glyph.char) := by
        apply longest_iff.mpr
        refine ⟨⟨body.map Glyph.char, rfl, by simpa using hbody⟩, ?_⟩
        intro d hd
        have hdn : '\n' = d := by simpa [Glyph.char] using hd
        rw [← hdn]
        decide
      have hsplit := Splits.cons hlong h₂
      rw [List.append_assoc, List.cons_append]
      exact ⟨_, hsplit, hm₂.trans hm₁⟩

/-! ## The marks of a layout -/

theorem IsGap.isIdentPart_head (h : IsGap gap) {d : Char} (hd : (gap.map Glyph.char).head? = some d) :
    isIdentPart d = false := by
  cases h with
  | nil => exact absurd hd (by simp)
  | @blank b _ hb _ =>
      have hbd : b.char = d := by simpa using hd
      rw [← hbd]
      exact isIdentPart_of_mem_signs (isBlank_iff.mp hb)
  | comment _ _ =>
      have hhash : '#' = d := by simpa [Glyph.char] using hd
      rw [← hhash]
      decide

/-- After a name, a layout does not go on with a character of a name. -/
theorem LaidOut.isIdentPart_head (h : LaidOut true ms text) {d : Char}
    (hd : (text.map Glyph.char).head? = some d) : isIdentPart d = false := by
  cases h with
  | nil hgap => exact hgap.isIdentPart_head hd
  | @cons _ m _ gap rest l hgap hapart hl _ =>
      cases gap with
      | cons g gap => exact hgap.isIdentPart_head hd
      | nil =>
          have hident : ¬ m.isIdent = true := fun hm => hapart rfl hm rfl
          obtain ⟨c, body, hc⟩ := List.exists_cons_of_ne_nil hl.1.ne_nil
          have hcd : c = d := by simpa [hc] using hd
          have hsign := (hc ▸ hl.1).mem_signs fun hk => hident (hl.kind_eq_ident_iff.mp hk)
          rw [← hcd]
          exact isIdentPart_of_mem_signs hsign

/-- **A layout splits into tokens with its marks.** -/
theorem LaidOut.exists_splits (h : LaidOut named ms text) :
    ∃ ls, Splits text ls ∧ ls.filterMap Lexeme.mark? = ms := by
  induction h with
  | nil hgap =>
      obtain ⟨ls, hsplit, hmarks⟩ := Splits.nil.widen hgap
      rw [List.append_nil] at hsplit
      exact ⟨ls, hsplit, hmarks⟩
  | @cons named m ms gap rest l hgap _ hl hrest ih =>
      obtain ⟨ls, hsplit, hmarks⟩ := ih
      -- the spelling is a lexeme of its own: after a name, `rest` starts with no character of a name
      have hlong : l.kind.Longest ((Glyph.ofString l.text).map Glyph.char) (rest.map Glyph.char) := by
        rw [Glyph.map_char_ofString]
        apply hl.longest
        intro hm d hd
        rw [hm] at hrest
        exact hrest.isIdentPart_head hd
      have hcons := Splits.cons hlong hsplit
      rw [Glyph.text_ofString] at hcons
      obtain ⟨ls', hsplit', hmarks'⟩ := hcons.widen hgap
      rw [← List.append_assoc] at hsplit'
      refine ⟨ls', hsplit', ?_⟩
      rw [hmarks', List.filterMap_cons, hl.2, hmarks]

/-- A text splits in one way only. -/
theorem Splits.unique {ls' : List Lexeme} (h : Splits text ls) (h' : Splits text ls') : ls = ls' := by
  obtain ⟨tokens, last, hok, rfl⟩ := h.exists_tokenize (.start "")
  obtain ⟨tokens', last', hok', rfl⟩ := h'.exists_tokenize (.start "")
  rw [hok] at hok'
  cases hok'
  rfl

/-- The marks of a text are the same for all its layouts. -/
theorem LaidOut.unique {ms' : List Mark} {named' : Bool} (h : LaidOut named ms text)
    (h' : LaidOut named' ms' text) : ms = ms' := by
  obtain ⟨ls, hsplit, rfl⟩ := h.exists_splits
  obtain ⟨ls', hsplit', rfl⟩ := h'.exists_splits
  rw [hsplit.unique hsplit']

end Native
end LetterGrammar
