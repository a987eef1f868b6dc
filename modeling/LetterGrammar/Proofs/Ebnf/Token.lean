import LetterGrammar.Ebnf.Token
import LetterGrammar.Ebnf.Writer
import LetterGrammar.Proofs.Text

/-!
# The tokens of a grammar in EBNF

The text of a grammar has a blank after every token but the last one of a line, so its tokens are what
was written: a name or a literal for each symbol, and the signs around them.

## Contents

- **`Mark`**: the class and the text of a token.
- **`productionMarks`**, **`grammarMarks`**: what is written for a nonterminal and for a grammar.
- **`CutInto`**: a text that is cut into tokens with given marks.
- **`CutInto.symbol`**, **`CutInto.choice`**, **`CutInto.production`**: from the tokens of a rest to
  those of a longer text.
- **`map_mark_tokenize_write`**: the tokens of a written grammar.
-/

namespace LetterGrammar
namespace Ebnf

/-! ## Marks -/

/-- What a token says, wherever it stands: its class and its text. -/
abbrev Mark := TokenClass × List Glyph

def Token.mark (t : Token) : Mark := (t.kind, t.text)

/-- The mark of a sign. -/
def signMark (c : Char) : Mark := (.sign c, [.scalar c])

/-- The mark of the end of a text. -/
def endMark : Mark := (.eof, [])

/-- The mark of a symbol: a literal for a terminal, a name for a nonterminal. -/
def symbolMark (s : Symbol) : Mark :=
  (if s.isLower then .string else .ident, Glyph.ofString (symbolText s))

/-- The mark of the empty literal. -/
def emptyMark : Mark := (.string, Glyph.ofString "\"\"")

/-- The bodies that are written out; the empty one has no text of its own. -/
def writtenBodies (bodies : List Body) : List Body :=
  bodies.filter fun b => !b.isEmpty

/-- The marks of bodies with bars between them. -/
def choiceMarks : List Body → List Mark
  | [] => []
  | b :: bs => b.map symbolMark ++ bs.flatMap fun c => signMark '|' :: c.map symbolMark

/-- The marks of the right side of a production. -/
def alternativesMarks (bodies : List Body) : List Mark :=
  if [] ∈ bodies then
    if writtenBodies bodies = [] then [emptyMark]
    else signMark '[' :: (choiceMarks (writtenBodies bodies) ++ [signMark ']'])
  else choiceMarks (writtenBodies bodies)

/-- The marks of a production. -/
def productionMarks (e : Symbol × List Body) : List Mark :=
  (.ident, Glyph.ofString e.1.text) :: signMark '=' :: (alternativesMarks e.2 ++ [signMark '.'])

/-- The marks of a grammar. -/
def grammarMarks (g : Grammar) : List Mark :=
  g.entries.flatMap productionMarks ++ [endMark]

theorem symbolMark_ne_sign (s : Symbol) (c : Char) : (symbolMark s).1 ≠ .sign c := by
  unfold symbolMark
  by_cases hlow : s.isLower = true
  · simp [hlow]
  · simp [hlow]

theorem mem_writtenBodies {bodies : List Body} {b : Body} :
    b ∈ writtenBodies bodies ↔ b ∈ bodies ∧ b ≠ [] := by
  simp [writtenBodies]

theorem written_letters {bodies : List Body} (h : ∀ b ∈ bodies, ∀ s ∈ b, s.IsLetter) :
    ∀ b ∈ writtenBodies bodies, b ≠ [] ∧ ∀ s ∈ b, s.IsLetter := by
  intro b hb
  obtain ⟨hmem, hne⟩ := mem_writtenBodies.mp hb
  exact ⟨hne, h b hmem⟩

/-- Where no body is empty, all are written out. -/
theorem writtenBodies_ne_nil {bodies : List Body} (hne : bodies ≠ []) (hnil : [] ∉ bodies) :
    writtenBodies bodies ≠ [] := by
  obtain ⟨b, bs, rfl⟩ := List.exists_cons_of_ne_nil hne
  have hb : b ≠ [] := fun hb => hnil (hb ▸ List.mem_cons_self)
  exact List.ne_nil_of_mem (mem_writtenBodies.mpr ⟨List.mem_cons_self, hb⟩)

theorem any_isEmpty_iff {bodies : List Body} : bodies.any List.isEmpty = true ↔ [] ∈ bodies := by
  simp [List.any_eq_true]

/-- The right side of a production, by the bodies that are written out. -/
theorem alternativesText_eq (bodies : List Body) :
    alternativesText bodies =
      if [] ∈ bodies then
        if writtenBodies bodies = [] then "\"\""
        else "[ " ++ String.intercalate " | " ((writtenBodies bodies).map sequenceText) ++ " ]"
      else String.intercalate " | " ((writtenBodies bodies).map sequenceText) := by
  unfold alternativesText writtenBodies
  simp only [any_isEmpty_iff, List.isEmpty_iff, List.map_eq_nil_iff]

/-! ## Characters of the notation -/

/-- No sign and no blank belongs to a name. -/
theorem isNamePart_sign {c : Char} (h : c ∈ ['=', '|', '[', ']', '.', ' ', '"']) :
    isNamePart c = false := by
  have hall : (['=', '|', '[', ']', '.', ' ', '"'].all fun c => !isNamePart c) = true := by
    decide +kernel
  simpa using List.all_eq_true.mp hall c h

theorem isNameStart_sign {c : Char} (h : c ∈ ['=', '|', '[', ']', '.', ' ', '"']) :
    isNameStart c = false := by
  have hpart := isNamePart_sign h
  rw [isNamePart, Bool.or_eq_false_iff] at hpart
  exact hpart.1

theorem isNameStart_toChar {s : Symbol} (h : s.isUpper = true) : isNameStart s.toChar = true := by
  have hletter : isLetter s.toChar = true := by
    unfold isLetter CodeRange.covers
    apply List.any_eq_true.mpr
    -- the first range of letters is that of the nonterminals
    refine ⟨(0x41, 0x5a), List.mem_cons_self, ?_⟩
    rw [Bool.and_eq_true, decide_eq_true_eq, decide_eq_true_eq]
    exact Symbol.toChar_upper_iff.mpr h
  simp [isNameStart, hletter]

/-- What holds of the 26 small letters holds of every printed terminal. -/
theorem lower_cases {P : Char → Prop} (h : ∀ k < 26, P (Char.ofNat (97 + k))) {s : Symbol}
    (hs : s.isLower = true) : P s.toChar := by
  obtain ⟨hlo, hhi⟩ := Symbol.toChar_lower_iff.mpr hs
  have hlo : 97 ≤ s.toChar.toNat := hlo
  have hhi : s.toChar.toNat ≤ 122 := hhi
  have hk := h (s.toChar.toNat - 97) (by omega)
  rw [Nat.add_sub_cancel' hlo, Char.ofNat_toNat] at hk
  exact hk

theorem quote_text {s : Symbol} (h : s.isLower = true) :
    Glyph.ofString (quote s.text) = [.scalar '"', .scalar s.toChar, .scalar '"'] := by
  have hall : ∀ k < 26, (quote (String.singleton (Char.ofNat (97 + k)))).toList
      = ['"', Char.ofNat (97 + k), '"'] := by decide +kernel
  have hlist : (quote s.text).toList = ['"', s.toChar, '"'] :=
    lower_cases (P := fun c => (quote (String.singleton c)).toList = ['"', c, '"']) hall h
  rw [Glyph.ofString, hlist]
  rfl

theorem lower_ne {s : Symbol} (h : s.isLower = true) {c : Char} (hc : c ∈ ['"', '\n', '\\']) :
    s.toChar ≠ c := by
  have hall : ∀ k < 26, Char.ofNat (97 + k) ∉ ['"', '\n', '\\'] := by decide +kernel
  rintro rfl
  exact lower_cases (P := fun d => d ∉ ['"', '\n', '\\']) hall h hc

/-! ## Lexemes -/

/-- A sign is a token by itself. A point is one unless a digit follows. -/
theorem lexeme_sign {c : Char} (hc : c ∈ ['=', '|', '[', ']', '.']) {rest : List Char}
    (hrest : c = '.' → (rest.head?.map isDecimal).getD false = false) :
    lexeme c rest = ⟨some (.sign c), 0, []⟩ := by
  have hname : ¬ isNameStart c = true := by
    rw [isNameStart_sign (List.mem_append_left [' ', '"'] hc)]
    decide
  simp only [List.mem_cons, List.not_mem_nil, or_false] at hc
  unfold lexeme
  rcases hc with rfl | rfl | rfl | rfl | rfl
  all_goals
    rw [if_neg (by decide), if_neg hname, if_neg (by decide), if_neg (by decide), if_neg (by decide),
      if_neg (by decide), if_neg (by simp [hrest]), if_neg (by simp), if_neg (by simp)]

/-- A nonterminal before a blank is a name of one letter. -/
theorem lexeme_name {s : Symbol} (h : s.isUpper = true) (rest : List Char) :
    lexeme s.toChar (' ' :: rest) = ⟨some .ident, 0, []⟩ := by
  have hblank : ¬ isBlank s.toChar = true := by
    have hlo : 65 ≤ s.toChar.toNat := (Symbol.toChar_upper_iff.mpr h).1
    have hne : ∀ c : Char, c.toNat < 65 → s.toChar ≠ c := by
      rintro c hc rfl
      omega
    simp [isBlank, hne ' ' (by decide), hne '\t' (by decide), hne '\n' (by decide), hne '\r' (by decide)]
  unfold lexeme
  rw [if_neg hblank, if_pos (isNameStart_toChar h), List.takeWhile_cons, isNamePart_sign (by simp)]
  rfl

theorem lexeme_quoted (rest : List Char) :
    lexeme '"' rest = ⟨some .string, (quotedExtent '"' .plain rest).length,
      (quotedExtent '"' .plain rest).complaints⟩ := by
  have hname : ¬ isNameStart '"' = true := by
    rw [isNameStart_sign (by simp)]
    decide
  unfold lexeme
  rw [if_neg (by decide), if_neg hname, if_neg (by decide), if_pos rfl]

/-- A quoted letter ends at the second quote. -/
theorem lexeme_letter {c : Char} (hc : ∀ d ∈ ['"', '\n', '\\'], c ≠ d) (rest : List Char) :
    lexeme '"' (c :: '"' :: rest) = ⟨some .string, 2, []⟩ := by
  have hext : quotedExtent '"' .plain (c :: '"' :: rest) = ⟨2, 1, []⟩ := by
    simp [quotedExtent, Extent.extend, hc]
  rw [lexeme_quoted, hext]

theorem lexeme_empty (rest : List Char) : lexeme '"' ('"' :: rest) = ⟨some .string, 1, []⟩ := by
  have hext : quotedExtent '"' .plain ('"' :: rest) = ⟨1, 0, []⟩ := by simp [quotedExtent]
  rw [lexeme_quoted, hext]

/-! ## From a rest to a longer text -/

/-- The text is cut into tokens with the marks, wherever it stands. -/
def CutInto (text : List Glyph) (ms : List Mark) : Prop :=
  ∀ comment place, (tokensFrom comment place text).list.map Token.mark = ms

variable {rest : List Glyph} {ms : List Mark}

theorem cutInto_nil : CutInto [] [endMark] := by
  intro comment place
  rw [tokensFrom]
  rfl

theorem CutInto.blank (h : CutInto rest ms) {c : Char} (hc : isBlank c = true) :
    CutInto (.scalar c :: rest) ms := by
  intro comment place
  have hlex : lexeme (Glyph.scalar c).char (rest.map Glyph.char) = ⟨none, 0, []⟩ := if_pos hc
  rw [tokensFrom, hlex]
  exact h _ _

/-- A token at the head of a text. -/
theorem CutInto.token (h : CutInto rest ms) {g : Glyph} (taken : List Glyph) {kind : TokenClass}
    {complaints : List Complaint}
    (hlex : lexeme g.char ((taken ++ rest).map Glyph.char) = ⟨some kind, taken.length, complaints⟩) :
    CutInto (g :: (taken ++ rest)) ((kind, g :: taken) :: ms) := by
  intro comment place
  rw [tokensFrom, hlex]
  dsimp only
  rw [List.take_left, List.drop_left, List.map_cons, h]
  rfl

theorem CutInto.sign (h : CutInto rest ms) {c : Char} (hc : c ∈ ['=', '|', '[', ']']) :
    CutInto (.scalar c :: rest) (signMark c :: ms) := by
  apply h.token []
  apply lexeme_sign (List.mem_append_left ['.'] hc)
  rintro rfl
  exact absurd hc (by decide)

theorem CutInto.point (h : CutInto rest ms)
    (hrest : ((rest.map Glyph.char).head?.map isDecimal).getD false = false) :
    CutInto (.scalar '.' :: rest) (signMark '.' :: ms) :=
  h.token [] (lexeme_sign (show '.' ∈ _ by simp) fun _ => hrest)

theorem CutInto.name (h : CutInto rest ms) {s : Symbol} (hs : s.isUpper = true) :
    CutInto (Glyph.ofString s.text ++ .scalar ' ' :: rest) ((.ident, Glyph.ofString s.text) :: ms) := by
  have htext : Glyph.ofString s.text = [.scalar s.toChar] := by
    rw [Glyph.ofString, Symbol.toList_text]
    rfl
  rw [htext]
  exact (h.blank (by decide)).token [] (lexeme_name hs _)

/-- A symbol and the blank after it. -/
theorem CutInto.symbol (h : CutInto rest ms) {s : Symbol} (hs : s.IsLetter) :
    CutInto (Glyph.ofString (symbolText s) ++ .scalar ' ' :: rest) (symbolMark s :: ms) := by
  unfold symbolMark symbolText
  by_cases hlow : s.isLower = true
  · rw [if_pos hlow, if_pos hlow, quote_text hlow]
    have hspace : CutInto (.scalar ' ' :: rest) ms := h.blank (by decide)
    exact hspace.token [.scalar s.toChar, .scalar '"'] (lexeme_letter (fun d hd => lower_ne hlow hd) _)
  · rw [if_neg hlow, if_neg hlow]
    exact h.name (hs.resolve_left hlow)

theorem CutInto.empty (h : CutInto rest ms) :
    CutInto (Glyph.ofString "\"\"" ++ .scalar ' ' :: rest) (emptyMark :: ms) := by
  have hspace : CutInto (.scalar ' ' :: rest) ms := h.blank (by decide)
  exact hspace.token [.scalar '"'] (lexeme_empty _)

/-- The symbols of a body and the blank after the last one. -/
theorem CutInto.sequence (h : CutInto rest ms) {b : Body} (hne : b ≠ []) (hb : ∀ s ∈ b, s.IsLetter) :
    CutInto (Glyph.ofString (sequenceText b) ++ .scalar ' ' :: rest) (b.map symbolMark ++ ms) := by
  unfold sequenceText
  induction b with
  | nil => exact absurd rfl hne
  | cons s b ih =>
      obtain ⟨hs, hb⟩ := List.forall_mem_cons.mp hb
      cases b with
      | nil => exact h.symbol hs
      | cons s' b =>
          have hrest := (ih (by simp) hb).symbol hs
          have hspace : Glyph.ofString " " = [.scalar ' '] := rfl
          rw [List.map_cons, List.map_cons, intercalate_cons_cons, ← List.map_cons]
          simpa [hspace] using hrest

/-- Bodies with bars between them, and the blank after the last one. -/
theorem CutInto.choice (h : CutInto rest ms) {bs : List Body} (hne : bs ≠ [])
    (hbs : ∀ b ∈ bs, b ≠ [] ∧ ∀ s ∈ b, s.IsLetter) :
    CutInto (Glyph.ofString (String.intercalate " | " (bs.map sequenceText)) ++ .scalar ' ' :: rest)
      (choiceMarks bs ++ ms) := by
  induction bs with
  | nil => exact absurd rfl hne
  | cons b bs ih =>
      obtain ⟨hb, hbs⟩ := List.forall_mem_cons.mp hbs
      cases bs with
      | nil =>
          have hone := h.sequence hb.1 hb.2
          simpa [choiceMarks] using hone
      | cons b' bs =>
          have hrest := ih (by simp) hbs
          have hbar := (hrest.blank (c := ' ') (by decide)).sign (c := '|') (by decide)
          have hfirst := hbar.sequence hb.1 hb.2
          have hsep : Glyph.ofString " | " = [.scalar ' ', .scalar '|', .scalar ' '] := rfl
          rw [List.map_cons, List.map_cons, intercalate_cons_cons, ← List.map_cons]
          simpa [hsep, choiceMarks] using hfirst

/-- The right side of a production and the blank after it. -/
theorem CutInto.alternatives (h : CutInto rest ms) {bodies : List Body} (hne : bodies ≠ [])
    (hbodies : ∀ b ∈ bodies, ∀ s ∈ b, s.IsLetter) :
    CutInto (Glyph.ofString (alternativesText bodies) ++ .scalar ' ' :: rest)
      (alternativesMarks bodies ++ ms) := by
  have hwritten := written_letters hbodies
  rw [alternativesText_eq]
  unfold alternativesMarks
  by_cases hnil : [] ∈ bodies
  · rw [if_pos hnil, if_pos hnil]
    by_cases hnone : writtenBodies bodies = []
    · rw [if_pos hnone, if_pos hnone]
      exact h.empty
    · rw [if_neg hnone, if_neg hnone]
      have hclose := (h.blank (c := ' ') (by decide)).sign (c := ']') (by decide)
      have hinner := hclose.choice hnone hwritten
      have hopen := (hinner.blank (c := ' ') (by decide)).sign (c := '[') (by decide)
      have htext : Glyph.ofString "[ " = [.scalar '[', .scalar ' '] := rfl
      have htext' : Glyph.ofString " ]" = [.scalar ' ', .scalar ']'] := rfl
      simpa [htext, htext'] using hopen
  · rw [if_neg hnil, if_neg hnil]
    exact h.choice (writtenBodies_ne_nil hne hnil) hwritten

/-- A line: what follows its last point is no digit. -/
theorem CutInto.production (h : CutInto rest ms)
    (hrest : ((rest.map Glyph.char).head?.map isDecimal).getD false = false)
    {e : Symbol × List Body} (hnt : e.1.isUpper = true) (hne : e.2 ≠ [])
    (hbodies : ∀ b ∈ e.2, ∀ s ∈ b, s.IsLetter) :
    CutInto (Glyph.ofString (productionText e.1 e.2) ++ rest) (productionMarks e ++ ms) := by
  -- from the point at the end of the line back to the name at its start
  have hright := (h.point hrest).alternatives hne hbodies
  have hequal := (hright.blank (c := ' ') (by decide)).sign (c := '=') (by decide)
  have hname := hequal.name hnt
  have htext : Glyph.ofString " = " = [.scalar ' ', .scalar '=', .scalar ' '] := rfl
  have htext' : Glyph.ofString " ." = [.scalar ' ', .scalar '.'] := rfl
  unfold productionText productionMarks
  simpa [htext, htext'] using hname

/-! ## The tokens of a grammar -/

/-- All lines; each but the last one is followed by a line break. -/
theorem cutInto_lines {g : Grammar} (entries : List (Symbol × List Body))
    (hentries : ∀ e ∈ entries, e ∈ g.entries) :
    CutInto (Glyph.ofString (String.intercalate "\n" (entries.map fun e => productionText e.1 e.2)))
      (entries.flatMap productionMarks ++ [endMark]) := by
  induction entries with
  | nil => exact cutInto_nil
  | cons e entries ih =>
      obtain ⟨he, hrest⟩ := List.forall_mem_cons.mp hentries
      have hnt := g.wellFormed.entry_upper he
      have hne := g.wellFormed.entry_ne_nil he
      have hbodies : ∀ b ∈ e.2, ∀ s ∈ b, s.IsLetter := fun b hb => g.wellFormed.entry_letter he hb
      cases entries with
      | nil =>
          have hline := cutInto_nil.production rfl hnt hne hbodies
          simpa using hline
      | cons e' entries =>
          have hmore := (ih hrest).blank (c := '\n') (by decide)
          have hline := hmore.production rfl hnt hne hbodies
          have hbreak : Glyph.ofString "\n" = [.scalar '\n'] := rfl
          rw [List.map_cons, List.map_cons, intercalate_cons_cons, List.flatMap_cons]
          simpa [hbreak] using hline

/-- The text of a grammar starts with the letter of its first nonterminal. -/
theorem head_write {g : Grammar} {c : Glyph} {rest : List Glyph}
    (h : Glyph.ofString (write g) = c :: rest) : ∃ s : Symbol, s.isUpper = true ∧ c = .scalar s.toChar := by
  unfold write at h
  cases hentries : g.entries with
  | nil =>
      rw [hentries] at h
      cases h
  | cons e entries =>
      have he : e ∈ g.entries := hentries ▸ List.mem_cons_self
      refine ⟨e.1, g.wellFormed.entry_upper he, ?_⟩
      rw [hentries, List.map_cons, intercalate_cons] at h
      unfold productionText Glyph.ofString at h
      simp only [String.toList_append, Symbol.toList_text, List.append_assoc, List.cons_append,
        List.nil_append, List.map_cons, List.cons.injEq] at h
      exact h.1.symm

/-- **The tokens of a written grammar** are a name, a sign or a literal for each thing written. No text
    of a grammar starts with a byte order mark. -/
theorem map_mark_tokenize_write (g : Grammar) (filename : String) :
    (tokenize filename (Glyph.ofString (write g))).list.map Token.mark = grammarMarks g := by
  have hcut : CutInto (Glyph.ofString (write g)) (grammarMarks g) :=
    cutInto_lines g.entries fun _ he => he
  unfold tokenize
  split
  · next hnil =>
    rw [hnil] at hcut
    exact hcut none _
  · next c rest hcons =>
    rw [hcons] at hcut
    obtain ⟨s, hs, rfl⟩ := head_write hcons
    have hmark : (Glyph.scalar s.toChar).char ≠ '\uFEFF' := by
      intro heq
      have hhi := (Symbol.toChar_upper_iff.mpr hs).2
      rw [show s.toChar = '\uFEFF' from heq] at hhi
      exact absurd hhi (by decide)
    rw [if_neg hmark]
    exact hcut none _

end Ebnf
end LetterGrammar
