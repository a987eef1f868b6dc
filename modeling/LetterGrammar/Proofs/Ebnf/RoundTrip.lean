import LetterGrammar.Proofs.Ebnf.Order
import LetterGrammar.Proofs.Ebnf.Parser
import LetterGrammar.Proofs.Rewriting

/-!
# Grammars read back from EBNF

The text of a grammar in EBNF is read back up to a normal form: each body is kept once, in the order of
first occurrence, with the empty body last, and the terminals are those in use, in the order of first
use. The words of every nonterminal stay the same. The nonterminals come in the order of the text, in
whatever order their productions are met.

## Contents

- **`normalBodies`**, **`usedTerminals`**: what is left of the bodies and of the terminals.
- **`expand_right`**: the bodies an expression of a written grammar stands for.
- **`addProductions_eq`**, **`grammarOf_eq`**: the parts that are read back.
- **`fault?_normalParts`**, **`derives_normalParts`**: they form a grammar, with the same words.
- **`read_write_normal`**: a grammar is read back in normal form.
-/

namespace LetterGrammar
namespace Ebnf

/-! ## Normal form -/

/-- The empty body, if it is one of the bodies. -/
def emptyBody (bodies : List Body) : List Body :=
  if bodies.contains [] then [[]] else []

/-- Each body that is not empty once, in the order of first occurrence, and the empty body last. -/
def normalBodies (bodies : List Body) : List Body :=
  (writtenBodies bodies).eraseDups ++ emptyBody bodies

/-- The terminals in use, in the order of first use. -/
def usedTerminals (productions : List (List Body)) : List Symbol :=
  (productions.flatten.flatten.filter Symbol.isLower).eraseDups

/-- The parts of a grammar in normal form. -/
def normalParts (p : Parts) : Parts where
  terminals := usedTerminals p.productions
  nonterminals := p.nonterminals
  productions := p.productions.map normalBodies

theorem emptyBody_of_mem {bodies : List Body} (h : [] ∈ bodies) : emptyBody bodies = [[]] :=
  if_pos (List.contains_iff_mem.mpr h)

theorem emptyBody_of_not_mem {bodies : List Body} (h : [] ∉ bodies) : emptyBody bodies = [] :=
  if_neg fun hc => h (List.contains_iff_mem.mp hc)

theorem mem_emptyBody {bodies : List Body} {b : Body} :
    b ∈ emptyBody bodies ↔ b ∈ bodies ∧ b = [] := by
  by_cases hnil : [] ∈ bodies
  · rw [emptyBody_of_mem hnil, List.mem_singleton]
    exact ⟨fun hb => ⟨hb ▸ hnil, hb⟩, And.right⟩
  · rw [emptyBody_of_not_mem hnil]
    exact ⟨fun hb => absurd hb List.not_mem_nil, fun hb => absurd (hb.2 ▸ hb.1) hnil⟩

/-- No body is lost, and none is added. -/
theorem mem_normalBodies {bodies : List Body} {b : Body} : b ∈ normalBodies bodies ↔ b ∈ bodies := by
  unfold normalBodies
  rw [List.mem_append, List.mem_eraseDups, mem_writtenBodies, mem_emptyBody, ← and_or_left]
  exact and_iff_left (ne_or_eq b [])

/-- Bodies with the empty one moved to the end, each kept once. -/
theorem distinct_written {bodies : List Body} (h : ∀ b ∈ bodies, b.IsScalar) :
    Body.distinct (writtenBodies bodies ++ emptyBody bodies) = normalBodies bodies := by
  have hscalar : ∀ b ∈ writtenBodies bodies ++ emptyBody bodies, b.IsScalar := by
    intro b hb
    rcases List.mem_append.mp hb with hb | hb
    · exact h b (mem_writtenBodies.mp hb).1
    · exact h b (mem_emptyBody.mp hb).1
  have hkeep : ((emptyBody bodies).removeAll (writtenBodies bodies)).eraseDups = emptyBody bodies := by
    by_cases hnil : [] ∈ bodies
    · have hnot : [] ∉ writtenBodies bodies := fun hmem => (mem_writtenBodies.mp hmem).2 rfl
      rw [emptyBody_of_mem hnil]
      simp [List.removeAll, hnot, List.eraseDups_cons]
    · rw [emptyBody_of_not_mem hnil]
      rfl
  rw [Body.distinct_eq_eraseDups hscalar, List.eraseDups_append, hkeep]
  rfl

/-! ## Expressions stand for their bodies -/

variable {used : List Symbol}

/-- The terminals collected are the first occurrences of what was met. -/
theorem collect_eraseDups (used : List Symbol) (b : Body) :
    collect used.eraseDups b = (used ++ b).eraseDups := by
  unfold collect
  rw [distinctOn_id_eq, List.eraseDups_append]
  congr 2
  unfold List.removeAll
  congr 1
  funext a
  have hmem : used.eraseDups.contains a = used.elem a := by
    rw [Bool.eq_iff_iff]
    simp [List.mem_eraseDups]
  rw [hmem]

theorem nonterminal_text {s : Symbol} (h : s.isUpper = true) (place : Position) :
    nonterminal place s.text = .ok s := by
  obtain ⟨c, rfl⟩ := Symbol.isScalar_of_isUpper h
  unfold nonterminal
  rw [Symbol.toList_text, Symbol.toChar_ofChar]
  dsimp only
  rw [if_pos h]

theorem literalBody_terminal {s : Symbol} (h : s.isLower = true) :
    literalBody [.scalar s.toChar] = [s] := by
  obtain ⟨c, rfl⟩ := Symbol.isScalar_of_isLower h
  show [Symbol.ofChar (Symbol.ofChar c).toChar] = _
  rw [Symbol.toChar_ofChar]

theorem expand_term {s : Symbol} {e : Expression} (h : IsTerm s e) :
    expand e used.eraseDups = .ok ([[s]], (used ++ [s].filter Symbol.isLower).eraseDups) := by
  cases h with
  | terminal hs place =>
      unfold expand
      rw [literalBody_terminal hs, if_pos (by simpa using hs), collect_eraseDups,
        List.filter_cons_of_pos hs]
      rfl
  | nonterminal hs place =>
      have hlow : ¬ s.isLower = true := by
        rw [Symbol.isLower_eq_false_of_isUpper hs]
        decide
      unfold expand
      rw [nonterminal_text hs, List.filter_cons_of_neg hlow, List.filter_nil, List.append_nil]

theorem expandSequence_terms {b : Body} {es : List Expression} (h : List.Forall₂ IsTerm b es) :
    expandSequence es used.eraseDups = .ok ([b], (used ++ b.filter Symbol.isLower).eraseDups) := by
  induction h generalizing used with
  | nil =>
      unfold expandSequence
      rw [List.filter_nil, List.append_nil]
  | @cons s e b es he _ ih =>
      have hsplit : (s :: b).filter Symbol.isLower
          = [s].filter Symbol.isLower ++ b.filter Symbol.isLower := by
        rw [← List.filter_append]
        rfl
      unfold expandSequence
      rw [expand_term he]
      dsimp only
      rw [ih, hsplit, List.append_assoc]
      rfl

/-- A body is all that its expression stands for. -/
theorem expand_sequence {b : Body} {e : Expression} (h : IsSequence b e) :
    expand e used.eraseDups = .ok ([b], (used ++ b.filter Symbol.isLower).eraseDups) := by
  cases h with
  | single h => exact expand_term h
  | several h =>
      unfold expand
      exact expandSequence_terms h

theorem expandAlternatives_sequences {bs : List Body} {es : List Expression}
    (h : List.Forall₂ IsSequence bs es) :
    expandAlternatives es used.eraseDups
      = .ok (bs, (used ++ bs.flatten.filter Symbol.isLower).eraseDups) := by
  induction h generalizing used with
  | nil =>
      unfold expandAlternatives
      rw [List.flatten_nil, List.filter_nil, List.append_nil]
  | cons he _ ih =>
      unfold expandAlternatives
      rw [expand_sequence he]
      dsimp only
      rw [ih, List.flatten_cons, List.filter_append, List.append_assoc]
      rfl

theorem expand_choice {bs : List Body} {e : Expression} (h : IsChoice bs e) :
    expand e used.eraseDups = .ok (bs, (used ++ bs.flatten.filter Symbol.isLower).eraseDups) := by
  cases h with
  | single h =>
      rw [expand_sequence h, List.flatten_singleton]
  | several h =>
      unfold expand
      exact expandAlternatives_sequences h

/-- **The right side of a production stands for the bodies it was written from**, the empty one moved
    to the end. -/
theorem expand_right {bodies : List Body} {e : Expression} (h : IsRight bodies e) :
    expand e used.eraseDups = .ok (writtenBodies bodies ++ emptyBody bodies,
      (used ++ bodies.flatten.filter Symbol.isLower).eraseDups) := by
  have hflat : (writtenBodies bodies).flatten = bodies.flatten := List.flatten_filter_not_isEmpty
  cases h with
  | plain hnil h => rw [expand_choice h, emptyBody_of_not_mem hnil, List.append_nil, hflat]
  | empty hnil hnone place =>
      rw [hnone, List.flatten_nil] at hflat
      rw [emptyBody_of_mem hnil, hnone, ← hflat]
      have hall : (literalBody []).all Symbol.isLower = true := rfl
      unfold expand
      rw [if_pos hall, collect_eraseDups]
      rfl
  | option hnil h =>
      unfold expand
      rw [expand_choice h, emptyBody_of_mem hnil, hflat]

/-! ## The parts that are read -/

/-- Productions add the nonterminals and bodies they were written from. -/
theorem addProductions_eq (used : List Symbol) {g : Grammar} {entries : List (Symbol × List Body)}
    {ps : List Production} (h : List.Forall₂ IsProduction entries ps)
    (hentries : ∀ e ∈ entries, e ∈ g.entries) (nts : List Symbol) (sets : List (List Body)) :
    addProductions ps ⟨used.eraseDups, nts, sets⟩
      = .ok ⟨(used ++ (entries.map Prod.snd).flatten.flatten.filter Symbol.isLower).eraseDups,
          nts ++ entries.map Prod.fst, sets ++ entries.map fun e => normalBodies e.2⟩ := by
  induction h generalizing used nts sets with
  | nil =>
      unfold addProductions
      simp
  | @cons e p entries ps hp _ ih =>
      obtain ⟨he, hentries⟩ := List.forall_mem_cons.mp hentries
      have hscalar : ∀ b ∈ e.2, b.IsScalar := fun b hb s hs =>
        (g.wellFormed.entry_letter he hb s hs).isScalar
      unfold addProductions
      rw [hp.name, nonterminal_text (g.wellFormed.entry_upper he)]
      dsimp only
      rw [expand_right hp.body]
      dsimp only
      rw [ih _ hentries, distinct_written hscalar]
      simp

/-- Productions of a grammar are read as its parts in normal form. -/
theorem grammarOf_eq {g : Grammar} {ps : List Production} (hascend : Ascend ps)
    (h : List.Forall₂ IsProduction g.entries ps) :
    grammarOf ps = Grammar.build (normalParts g.toParts) := by
  have hparts := addProductions_eq [] h (fun _ he => he) [] []
  rw [g.wellFormed.map_fst_entries, g.wellFormed.map_snd_entries, List.nil_append, List.nil_append,
    List.nil_append] at hparts
  have hsets : (g.entries.map fun e => normalBodies e.2) = g.productions.map normalBodies := by
    rw [← g.wellFormed.map_snd_entries, List.map_map]
    rfl
  rw [hsets] at hparts
  unfold grammarOf
  rw [inTextOrder_eq (.refl ps) hascend,
    show (⟨[], [], []⟩ : Parts) = ⟨List.eraseDups [], [], []⟩ from rfl, hparts]
  rfl

/-! ## The grammar in normal form -/

variable {p : Parts}

theorem entries_normalParts (p : Parts) :
    (normalParts p).entries = p.entries.map fun e => (e.1, normalBodies e.2) := by
  unfold Parts.entries normalParts
  rw [List.zip_map_right]
  rfl

/-- A nonterminal keeps its set of bodies. -/
theorem mem_bodies_normalParts (p : Parts) (s : Symbol) (b : Body) :
    b ∈ RuleTable.bodies (normalParts p).entries s ↔ b ∈ RuleTable.bodies p.entries s := by
  rw [entries_normalParts]
  induction p.entries with
  | nil => rfl
  | cons e entries ih =>
      rw [List.map_cons, RuleTable.bodies_cons, RuleTable.bodies_cons]
      by_cases hs : s = e.1
      · rw [if_pos hs, if_pos hs, mem_normalBodies]
      · rw [if_neg hs, if_neg hs, ih]

/-- A nonterminal derives the same words. -/
theorem derives_normalParts (p : Parts) {b : Body} {w : Word} :
    RuleTable.Derives p.entries b w ↔ RuleTable.Derives (normalParts p).entries b w :=
  RuleTable.derives_congr (mem_bodies_normalParts p)

theorem mem_usedTerminals {sets : List (List Body)} {s : Symbol} :
    s ∈ usedTerminals sets ↔ s.isLower = true ∧ ∃ bs ∈ sets, ∃ b ∈ bs, s ∈ b := by
  unfold usedTerminals
  rw [List.mem_eraseDups, List.mem_filter, List.mem_flatten]
  simp only [List.mem_flatten]
  constructor
  · rintro ⟨⟨b, ⟨bs, hbs, hb⟩, hs⟩, hlow⟩
    exact ⟨hlow, bs, hbs, b, hb, hs⟩
  · rintro ⟨hlow, bs, hbs, b, hb, hs⟩
    exact ⟨⟨b, ⟨bs, hbs, hb⟩, hs⟩, hlow⟩

/-- The normal form of well-formed parts is well-formed. -/
theorem wellFormed_normalParts (hp : p.WellFormed) : (normalParts p).WellFormed where
  terminals_lower := fun s hs => (mem_usedTerminals.mp hs).1
  terminals_nodup := by
    show (usedTerminals p.productions).Nodup
    unfold usedTerminals
    rw [← distinctOn_id_nil]
    exact distinctOn_nodup [] _
  nonterminals_upper := hp.nonterminals_upper
  nonterminals_nodup := hp.nonterminals_nodup
  count := by
    show (p.productions.map normalBodies).length = p.nonterminals.length
    rw [List.length_map, hp.count]
  sets_nonempty := by
    intro bs hbs
    obtain ⟨bodies, hbodies, rfl⟩ := List.mem_map.mp hbs
    obtain ⟨b, hb⟩ := List.exists_mem_of_ne_nil bodies (hp.sets_nonempty bodies hbodies)
    exact List.ne_nil_of_mem (mem_normalBodies.mpr hb)
  declared := by
    intro bs hbs b hb s hs
    obtain ⟨bodies, hbodies, rfl⟩ := List.mem_map.mp hbs
    have hb := mem_normalBodies.mp hb
    rcases hp.declared bodies hbodies b hb s hs with hterm | hnon
    · exact Or.inl (mem_usedTerminals.mpr ⟨hp.terminals_lower s hterm, bodies, hbodies, b, hb, hs⟩)
    · exact Or.inr hnon

/-- The normal form of a grammar is a grammar. -/
theorem fault?_normalParts (g : Grammar) : (normalParts g.toParts).fault? = none := by
  apply Parts.fault?_eq_none_iff.mpr
  refine ⟨wellFormed_normalParts g.wellFormed, ?_⟩
  intro nt hnt
  obtain ⟨w, hw⟩ := g.generating hnt
  exact ⟨w, (derives_normalParts g.toParts).mp hw⟩

/-- **A grammar written in EBNF is read back in normal form**, along every walk through the productions of
    its text. The nonterminals stay as they are and in their order. The bodies of each are kept once, in
    the order of first occurrence, with the empty body last. The terminals are those in use, in the order
    of first use. Every nonterminal derives the same words as before. -/
theorem read_write_normal (g : Grammar) (filename : String) :
    ∃ g', (∀ walk, readAlong walk filename (Glyph.ofString (write g)) = .ok g') ∧
      g'.nonterminals = g.nonterminals ∧
      g'.productions = g.productions.map normalBodies ∧
      g'.terminals = usedTerminals g.productions ∧
      ∀ nt w, RuleTable.Derives g.entries [nt] w ↔ RuleTable.Derives g'.entries [nt] w := by
  obtain ⟨ps, hparse, hps⟩ := parse_write g filename
  have hbuild := Grammar.build_of_fault?_eq_none (fault?_normalParts g)
  refine ⟨⟨normalParts g.toParts, false, fault?_normalParts g⟩, ?_, rfl, rfl, rfl, ?_⟩
  · intro walk
    rw [readAlong_eq]
    unfold read readAlong
    rw [hparse]
    exact (grammarOf_eq (parse_ascends hparse) hps).trans hbuild
  · intro nt w
    exact derives_normalParts g.toParts

/-- A body given twice, an empty body before others, a nonterminal with no other body, and a terminal
    without a use. -/
example : normalParts ⟨Body.ofText "bca", Body.ofText "SA",
      [[[], Body.ofText "aA", Body.ofText "c", Body.ofText "aA"], [[], []]]⟩ =
    ⟨Body.ofText "ac", Body.ofText "SA", [[Body.ofText "aA", Body.ofText "c", []], [[]]]⟩ := by decide

end Ebnf
end LetterGrammar
