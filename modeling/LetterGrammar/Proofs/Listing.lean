import LetterGrammar.Listing
import LetterGrammar.Proofs.Lines

/-!
# Listings can be read back

The lines of a listing carry no marks for the sets of bodies: they are one flat list of heads with bodies.
As no two nonterminals share a letter, the bodies of each can be picked out again, in order; and as the
sign for the empty body is made of no letters, it is told apart from every body. So a listing determines
the grammar it is a listing of, whatever form it names.

## Contents

- **`Labels.Legible`**: labels that keep the parts of a listing apart.
- **`Listing.rows`**, **`filter_rows`**: heads with single bodies, and the bodies of one head.
- **`Listing.text_eq_writeLines`**: a listing is a text of lines.
- **`Listing.readRow`**, **`Listing.readLines`**, **`Listing.read`**: reading a listing.
- **`Listing.read_text`**: a listing can be read back.
- **`listing_determines_grammar`**: grammars with the same listing are the same.
-/

namespace LetterGrammar

/-- Labels that keep the parts of a listing apart: each fits on its line, the names of the classes end
    before the slash and differ, and the sign for the empty body is not made of letters. -/
structure Labels.Legible (labels : Labels) : Prop where
  one_line : ∀ label ∈ [labels.grammar, labels.regular, labels.contextFree, labels.noForm,
    labels.chomsky, labels.greibach, labels.terminals, labels.nonterminals, labels.productions,
    labels.empty], '\n' ∉ label.toList
  no_slash : '/' ∉ labels.regular.toList ∧ '/' ∉ labels.contextFree.toList
  classes_ne : labels.contextFree ≠ labels.regular
  empty_sign : ∃ c ∈ labels.empty.toList, c.isAlpha = false

theorem Labels.legible_english : Labels.english.Legible :=
  ⟨by decide, by decide, by decide, 'ε', List.mem_singleton.mpr rfl, by decide⟩

theorem Labels.legible_polish : Labels.polish.Legible :=
  ⟨by decide, by decide, by decide, '&', List.mem_singleton.mpr rfl, by decide⟩

namespace Listing

/-! ## Rows -/

/-- Each head with each of its bodies. -/
def rows (t : RuleTable) : List (Symbol × Body) :=
  t.flatMap fun e => e.2.map (Prod.mk e.1)

theorem mem_rows {t : RuleTable} {r : Symbol × Body} :
    r ∈ rows t ↔ ∃ e ∈ t, r.1 = e.1 ∧ r.2 ∈ e.2 := by
  unfold rows
  rw [List.mem_flatMap]
  refine exists_congr fun e => and_congr_right fun _ => ?_
  rw [List.mem_map]
  constructor
  · rintro ⟨b, hb, rfl⟩
    exact ⟨rfl, hb⟩
  · rintro ⟨hhead, hbody⟩
    exact ⟨r.2, hbody, Prod.ext hhead.symm rfl⟩

/-- The rows of a head come from the entries of that head. -/
theorem filter_rows (t : RuleTable) (s : Symbol) :
    (rows t).filter (fun r => r.1 = s) = rows (t.filter fun e => e.1 = s) := by
  induction t with
  | nil => rfl
  | cons e t ih =>
    unfold rows at ih ⊢
    rw [List.flatMap_cons, List.filter_append, ih, List.filter_map]
    by_cases he : e.1 = s
    · rw [List.filter_cons_of_pos (by simpa using he), List.flatMap_cons]
      congr 2
      exact List.filter_eq_self.mpr fun b _ => by simpa using he
    · rw [List.filter_cons_of_neg (by simpa using he),
        List.filter_eq_nil_iff.mpr fun b _ => by simpa using he]
      rfl

/-- **The sets of bodies can be picked out of the rows again.** -/
theorem productions_eq_of_rows {p : Parts} (hp : p.WellFormed) :
    (p.nonterminals.map fun nt => ((rows p.entries).filter fun r => r.1 = nt).map Prod.snd)
      = p.productions := by
  rw [← hp.map_snd_entries, ← hp.map_fst_entries, List.map_map]
  refine List.map_congr_left fun e he => ?_
  have hnd : (p.entries.map Prod.fst).Nodup := by
    rw [hp.map_fst_entries]
    exact hp.nonterminals_nodup
  show ((rows p.entries).filter fun r => r.1 = e.1).map Prod.snd = e.2
  rw [filter_rows, filter_key_eq_singleton hnd he]
  simp [rows, Function.comp_def]

/-! ## Lines -/

section

variable (labels : Labels) (form : Form) (g : Grammar)

/-- The lines of the header, without their ends. -/
def headerLines : List String :=
  [labels.grammar ++ ": " ++ ((if g.regular then labels.regular else labels.contextFree) ++ "/"
      ++ formLabel labels form),
    labels.terminals ++ ": " ++ Body.text g.terminals,
    labels.nonterminals ++ ": " ++ Body.text g.nonterminals,
    labels.productions ++ ":"]

/-- The line of a row, without its end. -/
def rowLine (r : Symbol × Body) : String :=
  r.1.text ++ " -> " ++ if r.2.isEmpty then labels.empty else r.2.text

theorem header_eq_writeLines : header labels form g = writeLines (headerLines labels form g) := by
  simp [header, headerLines, writeLines, String.append_assoc]

/-- **A listing is a text of lines**: those of the header, then one for each row. -/
theorem text_eq_writeLines :
    text labels form g =
      writeLines (headerLines labels form g ++ (rows g.entries).map (rowLine labels)) := by
  have hrows : (g.entries.flatMap fun e => e.2.map (productionLine labels e.1)) =
      ((rows g.entries).map (rowLine labels)).map (· ++ "\n") := by
    simp only [rows, List.map_flatMap, List.map_map]
    rfl
  unfold text pieces
  rw [String.join_cons, header_eq_writeLines, hrows, writeLines_append]
  rfl

end

/-! ## Reading -/

/-- What stands behind a label on its line. -/
def behind (label line : String) : List Char :=
  line.toList.drop (label.toList.length + 2)

/-- The row of a line. -/
def readRow (labels : Labels) (line : String) : Symbol × Body :=
  let body := line.toList.drop 5
  ((line.toList.map Symbol.ofChar).headD ⟨0⟩,
    if body = labels.empty.toList then [] else body.map Symbol.ofChar)

/-- The parts and the regularity mark that the lines of a listing tell of. -/
def readLines (labels : Labels) : List String → Option (Parts × Bool)
  | kind :: terms :: nonterms :: _ :: rest =>
    let nonterminals := (behind labels.nonterminals nonterms).map Symbol.ofChar
    let found := rest.map (readRow labels)
    some
      ({ terminals := (behind labels.terminals terms).map Symbol.ofChar
         nonterminals := nonterminals
         productions := nonterminals.map fun nt => (found.filter fun r => r.1 = nt).map Prod.snd },
        (behind labels.grammar kind).takeWhile (· ≠ '/') = labels.regular.toList)
  | _ => none

/-- What a listing tells of. The line behind its last line end is empty. -/
def read (labels : Labels) (text : String) : Option (Parts × Bool) :=
  readLines labels (textLines text).dropLast

theorem behind_label (label rest : String) : behind label (label ++ ": " ++ rest) = rest.toList := by
  have hlen : label.toList.length + 2 = (label ++ ": ").toList.length := by
    simp
  unfold behind
  rw [String.toList_append, hlen, List.drop_left]

section

variable {labels : Labels} (hl : labels.Legible)
include hl

/-- The name of a class ends at the slash. -/
theorem takeWhile_class (regular : Bool) (rest : String) :
    ((if regular then labels.regular else labels.contextFree) ++ "/" ++ rest).toList.takeWhile
      (· ≠ '/') = (if regular then labels.regular else labels.contextFree).toList := by
  have hno : ∀ c ∈ (if regular then labels.regular else labels.contextFree).toList,
      decide (c ≠ '/') = true := by
    intro c hc
    simp only [decide_eq_true_eq]
    rintro rfl
    cases regular with
    | true => exact hl.no_slash.1 hc
    | false => exact hl.no_slash.2 hc
  rw [String.toList_append, String.toList_append, List.append_assoc, List.takeWhile_append_of_pos hno]
  simp

/-- The class tells whether the grammar is marked as regular. -/
theorem class_eq_regular (regular : Bool) :
    decide ((if regular then labels.regular else labels.contextFree).toList = labels.regular.toList)
      = regular := by
  cases regular with
  | true => simp
  | false => simpa [String.toList_inj] using hl.classes_ne

/-- The sign for the empty body is no body. -/
theorem chars_ne_empty_sign {b : Body} (hb : ∀ s ∈ b, s.IsLetter) : b.chars ≠ labels.empty.toList := by
  intro heq
  obtain ⟨c, hc, halpha⟩ := hl.empty_sign
  exact Body.not_mem_chars hb halpha (heq ▸ hc)

/-- **A row can be read from its line.** -/
theorem readRow_rowLine {r : Symbol × Body} (hhead : r.1.IsLetter) (hbody : ∀ s ∈ r.2, s.IsLetter) :
    readRow labels (rowLine labels r) = r := by
  obtain ⟨nt, b⟩ := r
  have hnt : Symbol.ofChar nt.toChar = nt := by
    obtain ⟨c, rfl⟩ := hhead.isScalar
    simp
  have hb : b.chars.map Symbol.ofChar = b := by
    have hspelled := Body.ofText_text fun s hs => (hbody s hs).isScalar
    rwa [Body.ofText, Body.toList_text] at hspelled
  cases b with
  | nil => simp [readRow, rowLine, hnt]
  | cons s rest =>
    have hne := chars_ne_empty_sign hl hbody
    simp [readRow, rowLine, hnt, hne, hb]

theorem no_line_end_formLabel (form : Form) : '\n' ∉ (formLabel labels form).toList := by
  cases form <;> exact hl.one_line _ (by simp [formLabel])

/-- Every line of the header is one line. -/
theorem no_line_end_header (form : Form) (g : Grammar) :
    ∀ line ∈ headerLines labels form g, '\n' ∉ line.toList := by
  have hp := g.wellFormed
  have hlabel := hl.one_line
  simp only [List.forall_mem_cons] at hlabel
  obtain ⟨hgrammar, hregular, hfree, -, -, -, hterms, hnonterms, hprods, -, -⟩ := hlabel
  have hclass : '\n' ∉ (if g.regular then labels.regular else labels.contextFree).toList := by
    cases g.regular with
    | true => exact hregular
    | false => exact hfree
  have hform := no_line_end_formLabel hl form
  have hterminals : '\n' ∉ Body.chars g.terminals :=
    Body.not_mem_chars (fun s hs => .inl (hp.terminals_lower s hs)) (by decide)
  have hnonterminals : '\n' ∉ Body.chars g.nonterminals :=
    Body.not_mem_chars (fun s hs => .inr (hp.nonterminals_upper s hs)) (by decide)
  simp only [headerLines, List.forall_mem_cons, String.toList_append, List.mem_append, not_or,
    Body.toList_text]
  simp [hgrammar, hclass, hform, hterms, hterminals, hnonterms, hnonterminals, hprods]

/-- The line of a row is one line. -/
theorem no_line_end_row {r : Symbol × Body} (hhead : r.1.IsLetter) (hbody : ∀ s ∈ r.2, s.IsLetter) :
    '\n' ∉ (rowLine labels r).toList := by
  have hempty : '\n' ∉ labels.empty.toList := hl.one_line _ (by simp)
  have hnt : '\n' ∉ Body.chars [r.1] :=
    Body.not_mem_chars (List.forall_mem_singleton.mpr hhead) (by decide)
  have hb : '\n' ∉ Body.chars r.2 := Body.not_mem_chars hbody (by decide)
  unfold rowLine
  rw [Body.text_singleton]
  split
  · simp [hnt, hempty]
  · simp [hnt, hb]

end

/-- The rows of a grammar are made of letters. -/
theorem row_letters {g : Grammar} {r : Symbol × Body} (hr : r ∈ rows g.entries) :
    r.1.IsLetter ∧ ∀ s ∈ r.2, s.IsLetter := by
  obtain ⟨e, he, hhead, hbody⟩ := mem_rows.mp hr
  exact ⟨hhead ▸ .inr (g.wellFormed.entry_upper he), g.wellFormed.entry_letter he hbody⟩

/-- **The lines of a listing can be read back.** -/
theorem readLines_lines {labels : Labels} (hl : labels.Legible) (form : Form) (g : Grammar) :
    readLines labels (headerLines labels form g ++ (rows g.entries).map (rowLine labels)) =
      some (g.toParts, g.regular) := by
  have hp := g.wellFormed
  have hrows : ((rows g.entries).map (rowLine labels)).map (readRow labels) = rows g.entries := by
    rw [List.map_map]
    refine (List.map_congr_left fun r hr => ?_).trans (List.map_id _)
    exact readRow_rowLine hl (row_letters hr).1 (row_letters hr).2
  have hterminals : (Body.text g.terminals).toList.map Symbol.ofChar = g.terminals :=
    Body.ofText_text fun s hs => Symbol.isScalar_of_isLower (hp.terminals_lower s hs)
  have hnonterminals : (Body.text g.nonterminals).toList.map Symbol.ofChar = g.nonterminals :=
    Body.ofText_text fun s hs => hp.isScalar_nonterminal hs
  simp only [headerLines, List.cons_append, List.nil_append, readLines]
  rw [behind_label, behind_label, behind_label, hterminals, hnonterminals, hrows,
    takeWhile_class hl, class_eq_regular hl, productions_eq_of_rows hp]

/-- **A listing can be read back**, whatever form it names. -/
theorem read_text {labels : Labels} (hl : labels.Legible) (form : Form) (g : Grammar) :
    read labels (text labels form g) = some (g.toParts, g.regular) := by
  have hlines : ∀ line ∈ headerLines labels form g ++ (rows g.entries).map (rowLine labels),
      '\n' ∉ line.toList := by
    refine List.forall_mem_append.mpr ⟨no_line_end_header hl form g, List.forall_mem_map.mpr ?_⟩
    intro r hr
    exact no_line_end_row hl (row_letters hr).1 (row_letters hr).2
  unfold read
  rw [text_eq_writeLines, textLines_writeLines hlines, List.dropLast_concat, readLines_lines hl]

end Listing

/-- **The listing determines the grammar.** With the labels of either language, grammars whose listings
    are the same text have the same alphabets, the same bodies in the same order and the same regularity
    mark, whatever forms the listings name. -/
theorem listing_determines_grammar {labels : Labels} (hl : labels = .english ∨ labels = .polish)
    {form form' : Form} {g g' : Grammar}
    (h : Listing.text labels form g = Listing.text labels form' g') :
    g.terminals = g'.terminals ∧ g.nonterminals = g'.nonterminals ∧ g.productions = g'.productions ∧
      g.regular = g'.regular := by
  have hlegible : labels.Legible := by
    rcases hl with rfl | rfl
    · exact Labels.legible_english
    · exact Labels.legible_polish
  have hread : some (g.toParts, g.regular) = some (g'.toParts, g'.regular) := by
    rw [← Listing.read_text hlegible form g, h, Listing.read_text hlegible form' g']
  obtain ⟨hparts, hregular⟩ := Prod.mk.inj (Option.some.inj hread)
  rw [hparts]
  exact ⟨rfl, rfl, rfl, hregular⟩

/-- A grammar with a repeated and an empty body. -/
def repeatingParts : Parts where
  terminals := Body.ofText "ab"
  nonterminals := Body.ofText "SA"
  productions := [[Body.ofText "aA", [], Body.ofText "aA"], [[], Body.ofText "b"]]

def repeating : Grammar := ⟨repeatingParts, true, by decide⟩

def repeatingUnmarked : Grammar := ⟨repeatingParts, false, by decide⟩

/-- A listing names no form but the two normal ones, so the grammar listed as regular and the one marked
    later and listed as context-free give the same text. -/
theorem listing_determines_grammar_repeating :
    Listing.text .polish .regular repeating =
        Listing.text .polish .contextFree (repeatingUnmarked.withRegular true) ∧
      repeating.productions = (repeatingUnmarked.withRegular true).productions ∧
      repeating.regular = (repeatingUnmarked.withRegular true).regular := by
  have htext : Listing.text .polish .regular repeating =
      Listing.text .polish .contextFree (repeatingUnmarked.withRegular true) := rfl
  obtain ⟨-, -, hproductions, hregular⟩ := listing_determines_grammar (.inr rfl) htext
  exact ⟨htext, hproductions, hregular⟩

end LetterGrammar
