import LetterGrammar.Native.Writer
import LetterGrammar.Proofs.Native.Layout
import LetterGrammar.Proofs.Native.Reader

/-!
# Written grammars are read back

The text of a grammar declares the terminals and has one rule for each nonterminal. Read back in any
layout it describes the parts it was written from: every head is met once, so no rules are merged, and
no body is lost.

## Contents

- **`writtenMarks`**: the marks of a written grammar.
- **`described_written`**: they describe the parts of the grammar.
- **`laidOut_write`**: the text of a grammar is a layout of them.
- **`read_variant_of_write`**: a written grammar is read back in any layout.
-/

namespace LetterGrammar
namespace Native

/-! ## What is written -/

/-- The alternative a body is written as. -/
def RuleBody.ofBody (b : Body) : RuleBody :=
  if b.isEmpty then .empty else .symbols b.text

/-- The rule of a nonterminal with its bodies, of which there is at least one. -/
def Clause.ofEntry (e : Symbol × List Body) : Clause :=
  ⟨e.1.text, .ofBody (e.2.headD []), e.2.tail.map .ofBody⟩

/-- The declared terminals; without any, there is no name to write. -/
def declaredTerminals (g : Grammar) : Option String :=
  if g.terminals.isEmpty then none else some (Body.text g.terminals)

/-- The rules of a grammar as they are written. -/
def writtenClauses (g : Grammar) : List Clause := g.entries.map Clause.ofEntry

/-- The marks of a written grammar. -/
def writtenMarks (g : Grammar) : List Mark :=
  fileMarks (some (declaredTerminals g)) (writtenClauses g)

/-! ## What it describes -/

theorem RuleBody.body_ofBody {b : Body} (h : b.IsScalar) : (RuleBody.ofBody b).body = b := by
  unfold RuleBody.ofBody
  cases b with
  | nil => rfl
  | cons s b => exact Body.ofText_text h

theorem Clause.bodies_ofEntry {e : Symbol × List Body} (hne : e.2 ≠ []) :
    (Clause.ofEntry e).bodies = e.2.map .ofBody := by
  obtain ⟨nt, bs⟩ := e
  cases bs with
  | nil => exact absurd rfl hne
  | cons b bs => rfl

theorem Clause.marks_ofEntry_cons (nt : Symbol) (b : Body) (bs : List Body) :
    (Clause.ofEntry (nt, b :: bs)).marks = .ident nt.text :: .arrow :: (RuleBody.ofBody b).mark ::
      otherMarks (bs.map .ofBody) := rfl

variable (g : Grammar)

theorem head_writtenClauses : (writtenClauses g).map Clause.head = g.nonterminals.map Symbol.text := by
  unfold writtenClauses
  rw [← g.wellFormed.map_fst_entries, List.map_map, List.map_map]
  rfl

/-- No head is written twice. -/
theorem nodup_head_writtenClauses : ((writtenClauses g).map Clause.head).Nodup := by
  rw [head_writtenClauses]
  exact g.wellFormed.nodup_text

/-- The bodies found for a head are those of its nonterminal. -/
theorem bodies_writtenClauses {e : Symbol × List Body} (he : e ∈ g.entries) :
    (((writtenClauses g).filter fun c => c.head = e.1.text).flatMap fun c => c.bodies.map RuleBody.body)
      = e.2 := by
  have hclause : Clause.ofEntry e ∈ writtenClauses g := List.mem_map_of_mem he
  -- no other clause has this head, so nothing is merged
  have hone := filter_key_eq_singleton (nodup_head_writtenClauses g) hclause
  have hbody : e.2.map (RuleBody.body ∘ RuleBody.ofBody) = e.2.map id := by
    apply List.map_congr_left
    intro b hb
    exact RuleBody.body_ofBody fun s hs => (g.wellFormed.entry_letter he hb s hs).isScalar
  show List.flatMap _ ((writtenClauses g).filter fun c => c.head = (Clause.ofEntry e).head) = e.2
  rw [hone, List.flatMap_singleton, Clause.bodies_ofEntry (g.wellFormed.entry_ne_nil he), List.map_map,
    hbody, List.map_id]

/-- **What is written describes the parts it was written from.** -/
theorem described_written :
    described (some (declaredTerminals g)) (writtenClauses g) = g.toParts := by
  have hterm : Body.ofText ((declaredTerminals g).getD "") = g.terminals := by
    unfold declaredTerminals
    cases hts : g.terminals with
    | nil => rfl
    | cons t ts =>
        rw [← hts, if_neg (by rw [hts]; simp)]
        apply Body.ofText_text
        intro s hs
        exact Symbol.isScalar_of_isLower (g.wellFormed.terminals_lower s hs)
  have hnon : (g.nonterminals.map Symbol.text).flatMap Body.ofText = g.nonterminals := by
    have hone : ∀ s ∈ g.nonterminals, Body.ofText s.text = [s] := fun s hs =>
      Symbol.ofText_text (g.wellFormed.isScalar_nonterminal hs)
    rw [List.flatMap_map, List.flatMap_congr hone, List.flatMap_singleton']
  have hheads := eraseDups_of_nodup (nodup_head_writtenClauses g)
  unfold described
  dsimp only
  rw [hheads, head_writtenClauses, hterm, hnon]
  congr 1
  rw [← g.wellFormed.map_fst_entries, ← g.wellFormed.map_snd_entries, List.map_map, List.map_map]
  exact List.map_congr_left fun e he => bodies_writtenClauses g he

/-! ## How it is laid out -/

section Pieces

variable {named : Bool} {ms : List Mark} {rest : List Glyph}

theorem spells_arrow : Lexeme.Spells ⟨.arrow, "->"⟩ .arrow := ⟨Or.inl rfl, rfl⟩

theorem spells_colon : Lexeme.Spells ⟨.punct, ":"⟩ (.punct ":") := ⟨Or.inr (Or.inl rfl), rfl⟩

theorem spells_terminals : Lexeme.Spells ⟨.ident, "terminals"⟩ (.ident "terminals") :=
  ⟨⟨'t', "erminals".toList, rfl, by decide, List.all_eq_true.mp (by decide)⟩, rfl⟩

theorem spells_bar : Lexeme.Spells ⟨.punct, "|"⟩ (.punct "|") := ⟨Or.inl rfl, rfl⟩

theorem spells_semicolon : Lexeme.Spells ⟨.punct, ";"⟩ (.punct ";") := ⟨Or.inr (Or.inr rfl), rfl⟩

theorem isIdentStart_toChar {s : Symbol} (h : s.IsLetter) : isIdentStart s.toChar = true := by
  rcases h with h | h
  · obtain ⟨hlo, hhi⟩ := Symbol.toChar_lower_iff.mpr h
    simp [isIdentStart, hlo, hhi]
  · obtain ⟨hlo, hhi⟩ := Symbol.toChar_upper_iff.mpr h
    simp [isIdentStart, hlo, hhi]

/-- Letters spell a name. -/
theorem spells_letters {b : Body} (hne : b ≠ []) (h : ∀ s ∈ b, s.IsLetter) :
    Lexeme.Spells ⟨.ident, b.text⟩ (.ident b.text) := by
  obtain ⟨s, b, rfl⟩ := List.exists_cons_of_ne_nil hne
  obtain ⟨hs, hb⟩ := List.forall_mem_cons.mp h
  refine ⟨⟨s.toChar, Body.chars b, Body.toList_text _, isIdentStart_toChar hs, ?_⟩, rfl⟩
  intro d hd
  obtain ⟨s', hs', rfl⟩ := List.mem_map.mp hd
  exact isIdentPart_of_isIdentStart (isIdentStart_toChar (hb s' hs'))

/-- A body is written as a spelling of its mark. -/
theorem exists_spells_body {b : Body} (h : ∀ s ∈ b, s.IsLetter) :
    ∃ l : Lexeme, l.text = bodyText b ∧ l.Spells (RuleBody.ofBody b).mark := by
  cases b with
  | nil => exact ⟨⟨.epsilon, "ε"⟩, rfl, Or.inl rfl, rfl⟩
  | cons s b => exact ⟨⟨.ident, Body.text (s :: b)⟩, rfl, spells_letters (by simp) h⟩

/-- The alternatives after the first one, and the end of a rule. -/
theorem laidOut_others {bs : List Body} (hbs : ∀ b ∈ bs, ∀ s ∈ b, s.IsLetter)
    (h : LaidOut false ms rest) :
    LaidOut named (Clause.otherMarks (bs.map .ofBody) ++ ms)
      ((bs.flatMap fun b => Glyph.ofString (" | " ++ bodyText b)) ++ (Glyph.ofString " ;" ++ rest)) := by
  induction bs generalizing named with
  | nil => exact LaidOut.spaced spells_semicolon h
  | cons b bs ih =>
      obtain ⟨hb, hbs⟩ := List.forall_mem_cons.mp hbs
      obtain ⟨l, htext, hl⟩ := exists_spells_body hb
      rw [List.flatMap_cons, Glyph.ofString_append, List.append_assoc, List.append_assoc, ← htext]
      exact LaidOut.spaced spells_bar (LaidOut.spaced hl (ih hbs))

/-- The line of a rule. -/
theorem laidOut_ruleLine {e : Symbol × List Body} (hnt : e.1.isUpper = true) (hne : e.2 ≠ [])
    (hbs : ∀ b ∈ e.2, ∀ s ∈ b, s.IsLetter) (h : LaidOut false ms rest) :
    LaidOut false ((Clause.ofEntry e).marks ++ ms) (Glyph.ofString (ruleLine e.1 e.2) ++ rest) := by
  obtain ⟨nt, bs⟩ := e
  obtain ⟨b, bs, rfl⟩ := List.exists_cons_of_ne_nil hne
  obtain ⟨hb, hbs⟩ := List.forall_mem_cons.mp hbs
  obtain ⟨l, htext, hl⟩ := exists_spells_body hb
  have hhead : Lexeme.Spells ⟨.ident, nt.text⟩ (.ident nt.text) := by
    rw [Body.text_singleton]
    exact spells_letters (by simp) (List.forall_mem_singleton.mpr (Or.inr hnt))
  have hend : LaidOut false ms (.scalar '\n' :: rest) := h.indent (by decide)
  have hline : Glyph.ofString (ruleLine nt (b :: bs)) ++ rest
      = Glyph.ofString nt.text ++ (.scalar ' ' :: (Glyph.ofString "->" ++ (.scalar ' ' ::
          (Glyph.ofString l.text ++ ((bs.flatMap fun b => Glyph.ofString (" | " ++ bodyText b))
            ++ (Glyph.ofString " ;" ++ (.scalar '\n' :: rest))))))) := by
    have harrow : Glyph.ofString " -> " = .scalar ' ' :: (Glyph.ofString "->" ++ [.scalar ' ']) := rfl
    have hsemi : Glyph.ofString " ;\n" = Glyph.ofString " ;" ++ [.scalar '\n'] := rfl
    unfold ruleLine
    rw [List.map_cons, intercalate_cons, htext]
    simp [Glyph.ofString_join, List.flatMap_map, harrow, hsemi]
  rw [hline, Clause.marks_ofEntry_cons, List.cons_append, List.cons_append, List.cons_append]
  apply LaidOut.mark rfl hhead
  apply LaidOut.spaced spells_arrow
  apply LaidOut.spaced hl
  exact laidOut_others hbs hend

end Pieces

/-- The lines of all rules. -/
theorem laidOut_rules (entries : List (Symbol × List Body)) (hentries : ∀ e ∈ entries, e ∈ g.entries) :
    LaidOut false ((entries.map Clause.ofEntry).flatMap Clause.marks)
      (entries.flatMap fun e => Glyph.ofString (ruleLine e.1 e.2)) := by
  induction entries with
  | nil => exact .nil .nil
  | cons e entries ih =>
      obtain ⟨he, hrest⟩ := List.forall_mem_cons.mp hentries
      rw [List.map_cons, List.flatMap_cons, List.flatMap_cons]
      apply laidOut_ruleLine (g.wellFormed.entry_upper he) (g.wellFormed.entry_ne_nil he)
      · exact fun b hb => g.wellFormed.entry_letter he hb
      · exact ih hrest

/-- The line that declares the terminals. -/
theorem laidOut_declaration {ms : List Mark} {rest : List Glyph} (h : LaidOut false ms rest) :
    LaidOut false (declarationMarks (some (declaredTerminals g)) ++ ms)
      (Glyph.ofString ("terminals: " ++ Body.text g.terminals ++ " ;\n") ++ rest) := by
  have hend : LaidOut false ms (.scalar '\n' :: rest) := h.indent (by decide)
  have hline : Glyph.ofString ("terminals: " ++ Body.text g.terminals ++ " ;\n") ++ rest
      = Glyph.ofString "terminals" ++ (Glyph.ofString ":" ++ (.scalar ' ' ::
          (Glyph.ofString (Body.text g.terminals) ++ (.scalar ' ' :: (Glyph.ofString ";" ++
            (.scalar '\n' :: rest)))))) := by
    have hword : Glyph.ofString "terminals: "
        = Glyph.ofString "terminals" ++ (Glyph.ofString ":" ++ [.scalar ' ']) := rfl
    have hsemi : Glyph.ofString " ;\n" = .scalar ' ' :: (Glyph.ofString ";" ++ [.scalar '\n']) := rfl
    simp [hword, hsemi]
  rw [hline]
  apply LaidOut.mark rfl spells_terminals
  apply LaidOut.mark rfl spells_colon
  have hletters : ∀ s ∈ g.terminals, s.IsLetter := fun s hs =>
    Or.inl (g.wellFormed.terminals_lower s hs)
  unfold declaredTerminals
  cases hts : g.terminals with
  | nil =>
      -- both blanks stand before the semicolon
      have hsemi : LaidOut false (.punct ";" :: ms) _ := LaidOut.spaced spells_semicolon hend
      exact hsemi.indent (by decide)
  | cons t ts =>
      rw [hts] at hletters
      apply LaidOut.spaced (spells_letters (by simp) hletters)
      exact LaidOut.spaced spells_semicolon hend

/-- **The text of a grammar is a layout of its marks.** -/
theorem laidOut_write : LaidOut false (writtenMarks g) (Glyph.ofString (write g)) := by
  have htext : Glyph.ofString (write g)
      = Glyph.ofString ("terminals: " ++ Body.text g.terminals ++ " ;\n")
        ++ g.entries.flatMap fun e => Glyph.ofString (ruleLine e.1 e.2) := by
    unfold write pieces
    rw [String.join_cons, Glyph.ofString_append, Glyph.ofString_join, List.flatMap_map]
  rw [htext]
  exact laidOut_declaration g (laidOut_rules g g.entries fun _ he => he)

/-! ## Reading it back -/

/-- Any layout of the marks of a written grammar is read as this grammar. -/
theorem read_of_laidOut (filename : String) {text : List Glyph} (h : LaidOut false (writtenMarks g) text) :
    read filename text = .ok (g.withRegular false) := by
  obtain ⟨lexemes, hsplit, hmarks⟩ := h.exists_splits
  apply read_of_form filename hsplit hmarks
  · intro c hc
    obtain ⟨e, _, rfl⟩ := List.mem_map.mp hc
    show e.1.text.length = 1
    rw [← String.length_toList, Symbol.toList_text]
    rfl
  · rw [described_written]
    exact Grammar.build_eq_ok_iff.mpr ⟨rfl, rfl⟩

/-- **A written grammar is read back in any layout.** Its text, and every text with the same marks in
    whatever spellings and with whatever gaps, is read as a grammar with the same parts. Whether a
    grammar was verified to be regular is not written. -/
theorem read_variant_of_write (g : Grammar) (filename : String) :
    read filename (Glyph.ofString (write g)) = .ok (g.withRegular false) ∧
    ∀ text, Variant (Glyph.ofString (write g)) text →
      read filename text = .ok (g.withRegular false) := by
  refine ⟨read_of_laidOut g filename (laidOut_write g), ?_⟩
  rintro text ⟨ms, hwritten, htext⟩
  rw [hwritten.unique (laidOut_write g)] at htext
  exact read_of_laidOut g filename htext

/-- A grammar with a repeated and an empty body. -/
def echo : Grammar :=
  ⟨⟨Body.ofText "a", Body.ofText "S", [[Body.ofText "aS", [], Body.ofText "aS"]]⟩, false, by decide⟩

/-- The same marks as in the text of the grammar, in other spellings and with other gaps. -/
def echoText : String := "terminals:a;# rules\nS→aS|&|aS;"

theorem read_variant_of_write_echo :
    Variant (Glyph.ofString (write echo)) (Glyph.ofString echoText) ∧
    read "" (Glyph.ofString echoText) = .ok (echo.withRegular false) := by
  have hbody : Lexeme.Spells ⟨.ident, "aS"⟩ (.ident "aS") :=
    ⟨⟨'a', ['S'], rfl, by decide, List.all_eq_true.mp (by decide)⟩, rfl⟩
  have hhead : Lexeme.Spells ⟨.ident, "S"⟩ (.ident "S") := ⟨⟨'S', [], rfl, by decide, by simp⟩, rfl⟩
  have hsymbol : Lexeme.Spells ⟨.ident, "a"⟩ (.ident "a") := ⟨⟨'a', [], rfl, by decide, by simp⟩, rfl⟩
  have harrow : Lexeme.Spells ⟨.arrow, "→"⟩ .arrow := ⟨Or.inr rfl, rfl⟩
  have hempty : Lexeme.Spells ⟨.epsilon, "&"⟩ .epsilon := ⟨Or.inr rfl, rfl⟩
  have hgap : IsGap (.scalar '#' :: Glyph.ofString " rules" ++ [.scalar '\n']) :=
    .comment (by decide) .nil
  have hmarks : writtenMarks echo = [.ident "terminals", .punct ":", .ident "a", .punct ";", .ident "S",
      .arrow, .ident "aS", .punct "|", .epsilon, .punct "|", .ident "aS", .punct ";"] := by decide
  have hrule : LaidOut false [.ident "S", .arrow, .ident "aS", .punct "|", .epsilon, .punct "|",
      .ident "aS", .punct ";"] (Glyph.ofString "# rules\nS→aS|&|aS;") := by
    refine .cons hgap (by simp) hhead ?_
    apply LaidOut.mark rfl harrow
    apply LaidOut.mark rfl hbody
    apply LaidOut.mark rfl spells_bar
    apply LaidOut.mark rfl hempty
    apply LaidOut.mark rfl spells_bar
    apply LaidOut.mark rfl hbody
    exact LaidOut.mark rfl spells_semicolon (.nil .nil)
  have hlaid : LaidOut false (writtenMarks echo) (Glyph.ofString echoText) := by
    have htext : Glyph.ofString echoText = Glyph.ofString "terminals" ++ (Glyph.ofString ":"
        ++ (Glyph.ofString "a" ++ (Glyph.ofString ";" ++ Glyph.ofString "# rules\nS→aS|&|aS;"))) := by
      decide +kernel
    rw [hmarks, htext]
    apply LaidOut.mark rfl spells_terminals
    apply LaidOut.mark rfl spells_colon
    apply LaidOut.mark rfl hsymbol
    exact LaidOut.mark rfl spells_semicolon hrule
  have hvariant : Variant (Glyph.ofString (write echo)) (Glyph.ofString echoText) :=
    ⟨writtenMarks echo, laidOut_write echo, hlaid⟩
  exact ⟨hvariant, (read_variant_of_write echo "").2 _ hvariant⟩

end Native
end LetterGrammar
