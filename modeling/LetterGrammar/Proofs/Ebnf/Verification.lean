import LetterGrammar.Ebnf.Verification
import LetterGrammar.Proofs.Ebnf.Parser
import LetterGrammar.Proofs.Greibach.Shape
import Mathlib.Data.List.Perm.Basic

/-!
# What verification finds

The verification of a grammar walks through the productions of its written text, by their names. Step by
step this is the walk over the rules of the grammar: a production names the nonterminals in the bodies it
was written from, in the same order, and every name has a production. So all that can be found is that a
nonterminal is out of reach, and in a converted grammar nothing is. The order of the complaints is that
in which the productions are met, and can be any.

## Contents

- **`names_right`**: the names in the right side of a written production.
- **`findProduction?_of_mem`**: every nonterminal has its production.
- **`visit_eq_walk`**: the walk by names is the walk over the rules.
- **`Complains`**, **`faultsFrom_written`**: the complaints, one for each nonterminal out of reach.
- **`verify_decides_reachability`**: verification decides reachability.
-/

namespace LetterGrammar
namespace Ebnf

open RuleTable

/-! ## Names -/

/-- The texts of the nonterminals of a body. -/
def nameTexts (b : Body) : List String :=
  (b.filter Symbol.isUpper).map Symbol.text

theorem nameTexts_append (a b : Body) : nameTexts (a ++ b) = nameTexts a ++ nameTexts b := by
  simp [nameTexts]

theorem names_term {s : Symbol} {e : Expression} (h : IsTerm s e) :
    e.names.map Prod.snd = nameTexts [s] := by
  cases h with
  | terminal hs place =>
      have hup : s.isUpper = false := by
        rw [Bool.eq_false_iff]
        intro hup
        rw [Symbol.isLower_eq_false_of_isUpper hup] at hs
        cases hs
      simp [Expression.names, nameTexts, hup]
  | nonterminal hs place => simp [Expression.names, nameTexts, hs]

theorem namesOfAll_terms {b : Body} {es : List Expression} (h : List.Forall₂ IsTerm b es) :
    (namesOfAll es).map Prod.snd = nameTexts b := by
  induction h with
  | nil => simp [namesOfAll, nameTexts]
  | @cons s e b es he _ ih =>
      rw [namesOfAll, List.map_append, names_term he, ih, ← nameTexts_append]
      rfl

theorem names_sequence {b : Body} {e : Expression} (h : IsSequence b e) :
    e.names.map Prod.snd = nameTexts b := by
  cases h with
  | single h => exact names_term h
  | several h =>
      unfold Expression.names
      exact namesOfAll_terms h

theorem namesOfAll_sequences {bs : List Body} {es : List Expression}
    (h : List.Forall₂ IsSequence bs es) : (namesOfAll es).map Prod.snd = nameTexts bs.flatten := by
  induction h with
  | nil => simp [namesOfAll, nameTexts]
  | cons he _ ih =>
      rw [namesOfAll, List.map_append, names_sequence he, ih, List.flatten_cons, nameTexts_append]

theorem names_choice {bs : List Body} {e : Expression} (h : IsChoice bs e) :
    e.names.map Prod.snd = nameTexts bs.flatten := by
  cases h with
  | single h => rw [names_sequence h, List.flatten_singleton]
  | several h =>
      unfold Expression.names
      exact namesOfAll_sequences h

/-- **The right side of a production names the nonterminals of the bodies** it was written from. -/
theorem names_right {bodies : List Body} {e : Expression} (h : IsRight bodies e) :
    e.names.map Prod.snd = nameTexts bodies.flatten := by
  have hflat : (writtenBodies bodies).flatten = bodies.flatten := List.flatten_filter_not_isEmpty
  cases h with
  | plain hnil h => rw [names_choice h, hflat]
  | empty hnil hnone place =>
      rw [← hflat, hnone]
      simp [Expression.names, nameTexts]
  | option hnil h =>
      unfold Expression.names
      rw [names_choice h, hflat]

/-! ## Productions -/

/-- The production of an entry is found by the name of its nonterminal. -/
theorem findProduction?_of_mem {entries : List (Symbol × List Body)} {ps : List Production}
    (h : List.Forall₂ IsProduction entries ps) (hnd : (entries.map fun e => e.1.text).Nodup)
    {e : Symbol × List Body} (he : e ∈ entries) :
    ∃ p, findProduction? ps e.1.text = some p ∧ IsProduction e p := by
  induction h with
  | nil => exact absurd he List.not_mem_nil
  | @cons e' p entries ps hp _ ih =>
      rw [List.map_cons, List.nodup_cons] at hnd
      unfold findProduction?
      rcases List.mem_cons.mp he with rfl | hmem
      · exact ⟨p, List.find?_cons_of_pos (by simp [hp.name]), hp⟩
      · have hne : p.name ≠ e.1.text := by
          intro heq
          rw [hp.name] at heq
          exact hnd.1 (heq ▸ List.mem_map_of_mem hmem)
        rw [List.find?_cons_of_neg (by simpa using hne)]
        exact ih hnd.2 hmem

section Walk

variable {g : Grammar} {ps : List Production} (hps : List.Forall₂ IsProduction g.entries ps)
include hps

/-- Every nonterminal has its production. -/
theorem exists_production {nt : Symbol} (h : nt ∈ g.nonterminals) :
    ∃ p, findProduction? ps nt.text = some p ∧ IsRight (bodies g.entries nt) p.body := by
  have hnd : (g.entries.map fun e => e.1.text).Nodup := by
    have htexts := g.wellFormed.nodup_text
    rw [← g.wellFormed.map_fst_entries, List.map_map] at htexts
    exact htexts
  rw [← g.wellFormed.map_fst_entries] at h
  obtain ⟨e, he, rfl⟩ := List.mem_map.mp h
  obtain ⟨p, hfind, hp⟩ := findProduction?_of_mem hps hnd he
  refine ⟨p, hfind, ?_⟩
  have hheads : (heads g.entries).Nodup := by
    rw [Parts.heads_entries g.wellFormed.count]
    exact g.wellFormed.nonterminals_nodup
  rw [bodies_eq_of_mem hheads he]
  exact hp.body

omit hps in
/-- A mentioned symbol is a nonterminal of the grammar. -/
theorem mem_nonterminals_of_mentions {a s : Symbol} (h : Mentions g.entries a s) :
    s ∈ g.nonterminals := by
  obtain ⟨hupper, b, hb, hs⟩ := h
  rcases g.wellFormed.body_symbol hb hs with hterm | hnon
  · have hlow := g.wellFormed.terminals_lower s hterm
    rw [Symbol.isLower_eq_false_of_isUpper hupper] at hlow
    cases hlow
  · exact hnon

omit hps in
/-- No two nonterminals share a text, so they can be told apart by it. -/
theorem fresh_text {seen : List Symbol} {head : Symbol} (hseen : ∀ s ∈ seen, s ∈ g.nonterminals) :
    distinctOn id (seen.map Symbol.text) (nameTexts (bodies g.entries head).flatten)
      = (fresh g.entries seen head).map Symbol.text := by
  unfold nameTexts RuleTable.fresh
  rw [distinctOn_map]
  congr 1
  apply distinctOn_of_key_inj
  intro a ha b hb htext
  obtain ⟨hflat, hupper⟩ := List.mem_filter.mp ha
  have hb' : b.IsScalar := by
    rcases List.mem_append.mp hb with hb | hb
    · exact g.wellFormed.isScalar_nonterminal (hseen b hb)
    · exact Symbol.isScalar_of_isUpper (List.mem_filter.mp hb).2
  exact (Symbol.isScalar_of_isUpper hupper).text_inj hb' htext

/-- **The walk by names is the walk over the rules**, step by step, and no name is missing. -/
theorem visit_eq_walk (steps : Nat) {queue seen : List Symbol}
    (hqueue : ∀ s ∈ queue, s ∈ g.nonterminals) (hseen : ∀ s ∈ seen, s ∈ g.nonterminals)
    (complaints : List String) :
    visit ps steps (queue.map Symbol.text) (seen.map Symbol.text) complaints
      = ((walk g.entries steps queue seen).map Symbol.text, complaints) := by
  induction steps generalizing queue seen with
  | zero => rfl
  | succ steps ih =>
      cases queue with
      | nil => rfl
      | cons head queue =>
          obtain ⟨hhead, hqueue⟩ := List.forall_mem_cons.mp hqueue
          obtain ⟨p, hfind, hright⟩ := exists_production hps hhead
          have hnames := names_right hright
          -- each name in the production has a production of its own
          have hknown : ∀ r ∈ p.body.names, (findProduction? ps r.2).isSome = true := by
            intro r hr
            have hmem : r.2 ∈ nameTexts (bodies g.entries head).flatten := by
              rw [← hnames]
              exact List.mem_map_of_mem hr
            obtain ⟨s, hs, htext⟩ := List.mem_map.mp hmem
            obtain ⟨hflat, hupper⟩ := List.mem_filter.mp hs
            obtain ⟨b, hb, hsb⟩ := List.mem_flatten.mp hflat
            have hnt : s ∈ g.nonterminals := mem_nonterminals_of_mentions ⟨hupper, b, hb, hsb⟩
            obtain ⟨q, hq, _⟩ := exists_production hps hnt
            rw [← htext, hq]
            rfl
          have hmissing : (p.body.names.filter fun r => (findProduction? ps r.2).isNone) = [] := by
            apply List.filter_eq_nil_iff.mpr
            intro r hr hnone
            have hsome := hknown r hr
            rw [Option.isNone_iff_eq_none.mp hnone] at hsome
            cases hsome
          have hnamed : (p.body.names.filter fun r => (findProduction? ps r.2).isSome) = p.body.names :=
            List.filter_eq_self.mpr hknown
          have hfresh : ∀ s ∈ fresh g.entries seen head, s ∈ g.nonterminals := by
            intro s hs
            exact mem_nonterminals_of_mentions (mem_fresh.mp hs).1
          rw [List.map_cons]
          unfold visit
          rw [hfind]
          dsimp only
          rw [hmissing, hnamed, show (p.body.names.map fun r => r.2) = _ from hnames, fresh_text hseen,
            List.map_nil, List.append_nil, ← List.map_append, ← List.map_append]
          exact ih (List.forall_mem_append.mpr ⟨hqueue, hfresh⟩)
            (List.forall_mem_append.mpr ⟨hseen, hfresh⟩)

end Walk

/-! ## Complaints -/

/-- The text complains that the nonterminal is out of reach, and says where its production is. -/
def Complains (nt : Symbol) (text : String) : Prop :=
  ∃ place, text = describe place ++ ": " ++ nt.text ++ " is unreachable"

/-- There is one complaint for each production whose nonterminal is not among the reached ones. -/
theorem complaints_written {entries : List (Symbol × List Body)} {ps : List Production}
    (h : List.Forall₂ IsProduction entries ps) {reached : List Symbol}
    (hentries : ∀ e ∈ entries, e.1.IsScalar) (hreached : ∀ s ∈ reached, s.IsScalar) :
    List.Forall₂ Complains ((entries.map Prod.fst).filter fun nt => !reached.contains nt)
      ((ps.filter fun p => !(reached.map Symbol.text).contains p.name).map unreachableText) := by
  induction h with
  | nil => exact .nil
  | @cons e p entries ps hp _ ih =>
      obtain ⟨he, hentries⟩ := List.forall_mem_cons.mp hentries
      have hsame : (reached.map Symbol.text).contains p.name = reached.contains e.1 := by
        rw [Bool.eq_iff_iff, List.contains_iff_mem, List.contains_iff_mem, hp.name, List.mem_map]
        constructor
        · rintro ⟨s, hs, htext⟩
          exact (hreached s hs).text_inj he htext ▸ hs
        · intro hs
          exact ⟨e.1, hs, rfl⟩
      rw [List.map_cons, List.filter_cons, List.filter_cons, hsame]
      by_cases hmem : reached.contains e.1 = true
      · simp only [hmem, Bool.not_true, Bool.false_eq_true, if_false]
        exact ih hentries
      · simp only [hmem, Bool.not_false, if_true]
        rw [List.map_cons]
        refine .cons ⟨p.place, ?_⟩ (ih hentries)
        unfold unreachableText
        rw [hp.name]

/-- Along a walk the productions are those of the entries in some order. -/
theorem exists_walked_entries (walk : Walk) {entries : List (Symbol × List Body)} {ps : List Production}
    (h : List.Forall₂ IsProduction entries ps) :
    ∃ walked, walked.Perm entries ∧ List.Forall₂ IsProduction walked (walk.order ps) := by
  obtain ⟨walked, hwalked, hperm⟩ := List.perm_comp_forall₂ (walk.perm ps) h.flip
  exact ⟨walked, hperm, hwalked.flip⟩

/-- **The complaints about a written grammar**: one for each nonterminal out of reach. -/
theorem faultsFrom_written (walk : Walk) {g : Grammar} {ps : List Production} {start : Symbol}
    (hps : List.Forall₂ IsProduction g.entries ps) (hstart : g.start? = some start) :
    ∃ unreached, unreached.Nodup ∧
      (∀ nt, nt ∈ unreached ↔ nt ∈ g.nonterminals ∧ ¬ g.Reached nt) ∧
      List.Forall₂ Complains unreached (faultsFrom walk ps start.text) := by
  have hmem : start ∈ g.nonterminals := List.mem_of_mem_head? hstart
  have hone : ∀ s ∈ [start], s ∈ g.nonterminals := List.forall_mem_singleton.mpr hmem
  have hall : ∀ a s, Mentions g.entries a s → s ∈ g.nonterminals := fun a s =>
    mem_nonterminals_of_mentions
  have hsteps : g.nonterminals.length ≤ ps.length + 1 := by
    rw [← hps.length_eq, ← g.wellFormed.map_fst_entries, List.length_map]
    exact Nat.le_succ _
  have hwalk : ∀ s, s ∈ RuleTable.walk g.entries (ps.length + 1) [start] [start] ↔ g.Reached s := by
    intro s
    rw [mem_walk_iff hall hmem hsteps, Parts.reached_iff hstart]
  have hvisit := visit_eq_walk hps (ps.length + 1) hone hone []
  obtain ⟨walked, hperm, hwalked⟩ := exists_walked_entries walk hps
  have hheads : (walked.map Prod.fst).Perm g.nonterminals := by
    rw [← g.wellFormed.map_fst_entries]
    exact hperm.map Prod.fst
  refine ⟨(walked.map Prod.fst).filter fun nt =>
    !(RuleTable.walk g.entries (ps.length + 1) [start] [start]).contains nt, ?_, ?_, ?_⟩
  · exact (hheads.nodup_iff.mpr g.wellFormed.nonterminals_nodup).filter _
  · intro nt
    rw [List.mem_filter, ← hwalk nt, hheads.mem_iff]
    simp
  · unfold faultsFrom
    rw [show [start.text] = [start].map Symbol.text from rfl, hvisit]
    dsimp only
    rw [List.nil_append]
    have hscalar : ∀ s ∈ RuleTable.walk g.entries (ps.length + 1) [start] [start], s.IsScalar := by
      -- whatever the walk sees is a nonterminal
      intro s hs
      exact g.wellFormed.isScalar_nonterminal (walk_sound (P := fun s => s ∈ g.nonterminals)
        (fun a s _ hm => hall a s hm) (ps.length + 1) hone hone s hs)
    exact complaints_written hwalked
      (fun e he => Symbol.isScalar_of_isUpper (g.wellFormed.entry_upper (hperm.subset he))) hscalar

/-! ## Verification -/

/-- With a start symbol, verification succeeds or reports all complaints. -/
theorem verifyAlong_eq (walk : Walk) {g : Grammar} {start : Symbol} (hstart : g.start? = some start) :
    ∃ unreached complaints, unreached.Nodup ∧
      (∀ nt, nt ∈ unreached ↔ nt ∈ g.nonterminals ∧ ¬ g.Reached nt) ∧
      List.Forall₂ Complains unreached complaints ∧
      verifyAlong walk g = if complaints = [] then .ok () else .error (.complaints complaints) := by
  obtain ⟨ps, hparse, hps⟩ := parse_write g "<grammar>"
  obtain ⟨unreached, hnodup, hmem, hcomplain⟩ := faultsFrom_written walk hps hstart
  refine ⟨unreached, faultsFrom walk ps start.text, hnodup, hmem, hcomplain, ?_⟩
  unfold verifyAlong
  rw [hstart]
  dsimp only
  rw [hparse]
  dsimp only
  cases faultsFrom walk ps start.text with
  | nil => rfl
  | cons m ms => rfl

/-- Verification succeeds exactly when every nonterminal can be reached. -/
theorem verifyAlong_ok_iff (walk : Walk) {g : Grammar} (hne : g.nonterminals ≠ []) :
    verifyAlong walk g = .ok () ↔ ∀ nt ∈ g.nonterminals, g.Reached nt := by
  obtain ⟨start, hstart⟩ := Parts.exists_start hne
  obtain ⟨unreached, complaints, _, hmem, hcomplain, hverify⟩ := verifyAlong_eq walk hstart
  have hnil : complaints = [] ↔ unreached = [] := by
    rw [← List.length_eq_zero_iff, ← List.length_eq_zero_iff, hcomplain.length_eq]
  constructor
  · intro hok nt hnt
    by_contra hout
    have hin : nt ∈ unreached := (hmem nt).mpr ⟨hnt, hout⟩
    have hsome : complaints ≠ [] := by
      intro hc
      rw [hnil.mp hc] at hin
      exact List.not_mem_nil hin
    rw [hverify, if_neg hsome] at hok
    cases hok
  · intro hall
    have hnone : unreached = [] := by
      apply List.eq_nil_iff_forall_not_mem.mpr
      intro nt hin
      obtain ⟨hnt, hout⟩ := (hmem nt).mp hin
      exact hout (hall nt hnt)
    rw [hverify, if_pos (hnil.mpr hnone)]

/-- **Verification decides reachability**, along every walk through the productions. A grammar with
    nonterminals passes exactly when each of them can be reached from the start symbol. If not, there is
    one complaint for each nonterminal out of reach, and no other. A grammar converted from one in Chomsky
    form always passes. -/
theorem verify_decides_reachability (walk : Walk) :
    (∀ g : Grammar, g.nonterminals ≠ [] →
      (verifyAlong walk g = .ok () ↔ ∀ nt ∈ g.nonterminals, g.Reached nt) ∧
      ((¬ ∀ nt ∈ g.nonterminals, g.Reached nt) →
        ∃ unreached complaints, unreached.Nodup ∧
          (∀ nt, nt ∈ unreached ↔ nt ∈ g.nonterminals ∧ ¬ g.Reached nt) ∧
          List.Forall₂ Complains unreached complaints ∧
          verifyAlong walk g = .error (.complaints complaints))) ∧
    (∀ (c : Chomsky) (settings : List Setting) (r : Greibach), c.grammar.nonterminals ≠ [] →
      (c.toGreibach settings).result = .ok r → verifyAlong walk r.grammar = .ok ()) := by
  refine ⟨?_, ?_⟩
  · intro g hne
    refine ⟨verifyAlong_ok_iff walk hne, ?_⟩
    intro hout
    obtain ⟨start, hstart⟩ := Parts.exists_start hne
    obtain ⟨unreached, complaints, hnodup, hmem, hcomplain, hverify⟩ := verifyAlong_eq walk hstart
    have hsome : complaints ≠ [] := by
      intro hnil
      rw [if_pos hnil] at hverify
      exact hout ((verifyAlong_ok_iff walk hne).mp hverify)
    rw [if_neg hsome] at hverify
    exact ⟨unreached, complaints, hnodup, hmem, hcomplain, hverify⟩
  · intro c settings r hne h
    rw [Chomsky.toGreibach_result, bind_eq_ok_iff] at h
    obtain ⟨s, _, hconvert⟩ := h
    have hshape := converted_convert hne hconvert
    exact (verifyAlong_ok_iff walk hshape.nonterminals_ne_nil).mpr hshape.reached

/-- Two nonterminals of which the second is out of reach: `S → a S | a` and `A → b`. -/
def asideParts : Parts where
  terminals := Body.ofText "ab"
  nonterminals := Body.ofText "SA"
  productions := [[Body.ofText "aS", Body.ofText "a"], [Body.ofText "b"]]

def aside : Grammar := ⟨asideParts, false, by decide⟩

theorem verify_aside_and_leadOnly :
    (∃ unreached complaints, Symbol.ofChar 'A' ∈ unreached ∧
      List.Forall₂ Complains unreached complaints ∧ verify aside = .error (.complaints complaints)) ∧
    (∃ r, (leadOnly.toGreibach []).result = .ok r ∧ verify r.grammar = .ok ()) := by
  have hmem : Symbol.ofChar 'A' ∈ aside.nonterminals := by decide
  have hstart : aside.start? = some (Symbol.ofChar 'S') := rfl
  have hout : ¬ aside.Reached (Symbol.ofChar 'A') := by
    rw [Parts.reached_iff hstart, ← mem_reachable_iff]
    decide
  constructor
  · obtain ⟨unreached, complaints, _, hiff, hcomplain, hverify⟩ :=
      ((verify_decides_reachability .asListed).1 aside (by decide)).2 (fun hall => hout (hall _ hmem))
    exact ⟨unreached, complaints, (hiff _).mpr ⟨hmem, hout⟩, hcomplain, hverify⟩
  · rcases leadOnly.convert_cases false with ⟨⟨r, hok⟩, _⟩ | ⟨_, hfull⟩
    · have hresult : (leadOnly.toGreibach []).result = .ok r := hok
      exact ⟨r, hresult, (verify_decides_reachability .asListed).2 leadOnly [] r (by decide) hresult⟩
    · exact absurd hfull (by decide)

end Ebnf
end LetterGrammar
