import LetterGrammar.Ebnf.Parser
import LetterGrammar.Proofs.Ebnf.Token
import Mathlib.Data.List.Forall2

/-!
# Reading a written grammar

The productions read from the text of a grammar are those of its nonterminals, in the same order, and
no complaint is made. Of the expressions only the places depend on the text; what else they are made of
follows from the bodies.

## Contents

- **`IsTerm`**, **`IsSequence`**, **`IsChoice`**, **`IsRight`**, **`IsProduction`**: the expressions of a
  symbol, a body, several bodies, all bodies of a nonterminal, and its production.
- **`Reading.Faces`**: a reading without a complaint, and the marks it has yet to read.
- **`terms_of_faces`**, **`sequence_of_faces`**, **`alternatives_of_faces`**, **`expression_of_faces`**,
  **`production_of_faces`**, **`productions_of_faces`**: what is read, and what is left.
- **`parse_write`**: the productions of a written grammar.
-/

namespace LetterGrammar
namespace Ebnf

/-! ## The expressions of a grammar -/

/-- The expression of a symbol. -/
inductive IsTerm : Symbol → Expression → Prop
  | terminal {s : Symbol} (hs : s.isLower = true) (place : Position) :
      IsTerm s (.token place [.scalar s.toChar])
  | nonterminal {s : Symbol} (hs : s.isUpper = true) (place : Position) : IsTerm s (.name place s.text)

/-- The expression of a body that is not empty. -/
inductive IsSequence : Body → Expression → Prop
  | single {s : Symbol} {e : Expression} (h : IsTerm s e) : IsSequence [s] e
  | several {b : Body} {es : List Expression} (h : List.Forall₂ IsTerm b es) :
      IsSequence b (.sequence es)

/-- The expression of bodies with bars between them. -/
inductive IsChoice : List Body → Expression → Prop
  | single {b : Body} {e : Expression} (h : IsSequence b e) : IsChoice [b] e
  | several {bs : List Body} {es : List Expression} (h : List.Forall₂ IsSequence bs es) :
      IsChoice bs (.alternative es)

/-- The expression of all bodies of a nonterminal. -/
inductive IsRight (bodies : List Body) : Expression → Prop
  | plain {e : Expression} (hnil : [] ∉ bodies) (h : IsChoice (writtenBodies bodies) e) : IsRight bodies e
  | empty (hnil : [] ∈ bodies) (hnone : writtenBodies bodies = []) (place : Position) :
      IsRight bodies (.token place [])
  | option {e : Expression} (hnil : [] ∈ bodies) (h : IsChoice (writtenBodies bodies) e) :
      IsRight bodies (.option e)

/-- The production of a nonterminal. -/
structure IsProduction (e : Symbol × List Body) (p : Production) : Prop where
  name : p.name = e.1.text
  body : IsRight e.2 p.body

/-! ## Readings without a complaint -/

/-- The marks that a reading has yet to read, the current one first; nothing was complained about. -/
structure Reading.Faces (r : Reading) (ms : List Mark) : Prop where
  marks : (r.current :: r.rest).map Token.mark = ms
  quiet : r.complaints = []

namespace Reading.Faces

variable {r : Reading} {m : Mark} {ms : List Mark}

theorem kind (h : r.Faces (m :: ms)) : r.current.kind = m.1 :=
  congrArg Prod.fst (List.cons.inj h.marks).1

theorem text (h : r.Faces (m :: ms)) : r.current.text = m.2 :=
  congrArg Prod.snd (List.cons.inj h.marks).1

theorem next (h : r.Faces (m :: ms)) (hne : ms ≠ []) : r.next.Faces ms := by
  obtain ⟨current, rest, complaints⟩ := r
  obtain ⟨hmarks, hquiet⟩ := h
  have hrest := (List.cons.inj hmarks).2
  cases rest with
  | nil => exact absurd hrest.symm hne
  | cons t ts => exact ⟨hrest, hquiet⟩

theorem expect {kind : TokenClass} (h : r.Faces (m :: ms)) (hkind : m.1 = kind) (hne : ms ≠ []) :
    (r.expect kind).Faces ms := by
  unfold Reading.expect
  rw [if_pos (h.kind.trans hkind)]
  exact h.next hne

theorem length (h : r.Faces ms) : r.rest.length + 1 = ms.length := by
  rw [← h.marks, List.length_map, List.length_cons]

end Reading.Faces

variable {r : Reading} {m : Mark} {ms : List Mark}

/-! ## Terms and sequences -/

/-- The classes of the marks after a body. -/
def bodyEnds : List TokenClass := [.sign '|', .sign ']', .sign '.']

/-- The value of a quoted terminal. -/
theorem unquote?_terminal {s : Symbol} (h : s.isLower = true) :
    unquote? [.scalar '"', .scalar s.toChar, .scalar '"'] = some [.scalar s.toChar] := by
  have hall : ∀ k < 26, unquote? [.scalar '"', .scalar (Char.ofNat (97 + k)), .scalar '"']
      = some [.scalar (Char.ofNat (97 + k))] := by decide +kernel
  exact lower_cases (P := fun c => unquote? [.scalar '"', .scalar c, .scalar '"'] = some [.scalar c]) hall h

/-- A symbol is read as its term. -/
theorem term_of_faces {s : Symbol} (hs : s.IsLetter) (h : r.Faces (symbolMark s :: m :: ms))
    (hm : m.1 ≠ ellipsis) (fuel : Nat) : ∃ e, term (fuel + 1) r = (some e, r.next) ∧ IsTerm s e := by
  have hkind := h.kind
  have htext := h.text
  unfold symbolMark symbolText at hkind htext
  dsimp only at hkind htext
  unfold term
  by_cases hlow : s.isLower = true
  · have hnext : r.next.current.kind ≠ ellipsis := by
      rw [(h.next (by simp)).kind]
      exact hm
    have hvalue : literalValue r.current = [.scalar s.toChar] := by
      unfold literalValue
      rw [htext, if_pos hlow, quote_text hlow, unquote?_terminal hlow]
      rfl
    rw [if_pos hlow] at hkind
    rw [hkind]
    dsimp only
    rw [if_neg hnext, hvalue]
    exact ⟨_, rfl, .terminal hlow _⟩
  · have hup : s.isUpper = true := hs.resolve_left hlow
    have hname : Glyph.text r.current.text = s.text := by
      rw [htext, if_neg hlow, Glyph.text_ofString]
    rw [if_neg hlow] at hkind
    rw [hkind]
    dsimp only
    rw [hname]
    exact ⟨_, rfl, .nonterminal hup _⟩

/-- No term starts after a body. -/
theorem term_eq_none (h : r.Faces (m :: ms)) (hm : m.1 ∈ bodyEnds) (fuel : Nat) :
    term fuel r = (none, r) := by
  cases fuel with
  | zero => rfl
  | succ fuel =>
      have hkind := h.kind
      unfold term
      simp only [bodyEnds, List.mem_cons, List.not_mem_nil, or_false] at hm
      rcases hm with hm | hm | hm
      all_goals
        rw [hm] at hkind
        rw [hkind]
        rfl

/-- The mark behind a symbol of a body is no sign of a range. -/
theorem exists_follower (b : Body) (hm : m.1 ∈ bodyEnds) (ms : List Mark) :
    ∃ m' ms', b.map symbolMark ++ m :: ms = m' :: ms' ∧ m'.1 ≠ ellipsis := by
  cases b with
  | nil =>
      refine ⟨m, ms, rfl, ?_⟩
      intro heq
      rw [heq] at hm
      exact absurd hm (by decide)
  | cons s b => exact ⟨symbolMark s, b.map symbolMark ++ m :: ms, rfl, symbolMark_ne_sign s '…'⟩

/-- The terms of a body are read up to its end. -/
theorem terms_of_faces (fuel : Nat) {b : Body} (hb : ∀ s ∈ b, s.IsLetter) (hm : m.1 ∈ bodyEnds)
    (hfuel : b.length < fuel) (h : r.Faces (b.map symbolMark ++ m :: ms)) :
    ∃ es r', terms fuel r = (es, r') ∧ List.Forall₂ IsTerm b es ∧ r'.Faces (m :: ms) := by
  induction b generalizing r fuel with
  | nil =>
      obtain ⟨fuel, rfl⟩ := Nat.exists_eq_add_one.mpr hfuel
      unfold terms
      rw [term_eq_none h hm]
      exact ⟨[], r, rfl, .nil, h⟩
  | cons s b ih =>
      obtain ⟨hs, hb⟩ := List.forall_mem_cons.mp hb
      rw [List.length_cons] at hfuel
      obtain ⟨fuel, rfl⟩ : ∃ n, fuel = n + 2 := ⟨fuel - 2, by omega⟩
      have hfuel : b.length < fuel + 1 := by omega
      -- one token more is looked at: a literal before the sign of a range would start a range
      obtain ⟨m', ms', hfollow, hm'⟩ := exists_follower b hm ms
      rw [List.map_cons, List.cons_append, hfollow] at h
      obtain ⟨e, hterm, he⟩ := term_of_faces hs h hm' fuel
      have hnext := h.next (by simp)
      rw [← hfollow] at hnext
      obtain ⟨es, r', hterms, hes, hr'⟩ := ih (fuel + 1) hb hfuel hnext
      unfold terms
      rw [hterm]
      dsimp only
      rw [hterms]
      exact ⟨e :: es, r', rfl, .cons he hes, hr'⟩

/-- A body is read up to its end. -/
theorem sequence_of_faces (fuel : Nat) {b : Body} (hne : b ≠ []) (hb : ∀ s ∈ b, s.IsLetter)
    (hm : m.1 ∈ bodyEnds) (hfuel : b.length + 1 < fuel) (h : r.Faces (b.map symbolMark ++ m :: ms)) :
    ∃ e r', sequence fuel r = (e, r') ∧ IsSequence b e ∧ r'.Faces (m :: ms) := by
  obtain ⟨fuel, rfl⟩ : ∃ n, fuel = n + 1 := ⟨fuel - 1, by omega⟩
  obtain ⟨es, r', hterms, hes, hr'⟩ := terms_of_faces fuel hb hm (by omega) h
  unfold sequence
  rw [hterms]
  cases hes with
  | nil => exact absurd rfl hne
  | cons he hes =>
      cases hes with
      | nil => exact ⟨_, r', rfl, .single he, hr'⟩
      | cons he' hes => exact ⟨_, r', rfl, .several (.cons he (.cons he' hes)), hr'⟩

/-! ## Alternatives -/

/-- What follows a body is a bar, or what follows the last one. -/
theorem exists_bodyEnd (bs : List Body) (hm : m.1 ∈ bodyEnds) (ms : List Mark) :
    ∃ m' ms', (bs.flatMap fun c => signMark '|' :: c.map symbolMark) ++ m :: ms = m' :: ms' ∧
      m'.1 ∈ bodyEnds := by
  cases bs with
  | nil => exact ⟨m, ms, rfl, hm⟩
  | cons b bs => exact ⟨signMark '|', _, rfl, by decide⟩

/-- The bodies behind the bars are read up to the end of the last one. -/
theorem alternatives_of_faces (fuel : Nat) {bs : List Body}
    (hbs : ∀ b ∈ bs, b ≠ [] ∧ ∀ s ∈ b, s.IsLetter) (hm : m.1 ∈ bodyEnds) (hbar : m.1 ≠ .sign '|')
    (hfuel : (bs.flatMap fun c => signMark '|' :: c.map symbolMark).length + 1 < fuel)
    (h : r.Faces ((bs.flatMap fun c => signMark '|' :: c.map symbolMark) ++ m :: ms)) :
    ∃ es r', alternatives fuel r = (es, r') ∧ List.Forall₂ IsSequence bs es ∧ r'.Faces (m :: ms) := by
  induction bs generalizing r fuel with
  | nil =>
      obtain ⟨fuel, rfl⟩ : ∃ n, fuel = n + 1 := ⟨fuel - 1, by omega⟩
      have hkind : r.current.kind ≠ .sign '|' := by
        rw [h.kind]
        exact hbar
      unfold alternatives
      rw [if_neg hkind]
      exact ⟨[], r, rfl, .nil, h⟩
  | cons b bs ih =>
      obtain ⟨⟨hne, hb⟩, hbs⟩ := List.forall_mem_cons.mp hbs
      rw [List.flatMap_cons, List.length_append, List.length_cons, List.length_map] at hfuel
      obtain ⟨fuel, rfl⟩ : ∃ n, fuel = n + 1 := ⟨fuel - 1, by omega⟩
      obtain ⟨m', ms', hend, hm'⟩ := exists_bodyEnd bs hm ms
      rw [List.flatMap_cons, List.cons_append, List.cons_append, List.append_assoc, hend] at h
      have hkind : r.current.kind = .sign '|' := h.kind
      obtain ⟨e, r₁, hseq, he, hr₁⟩ := sequence_of_faces fuel hne hb hm' (by omega) (h.next (by simp))
      rw [← hend] at hr₁
      obtain ⟨es, r₂, halts, hes, hr₂⟩ := ih fuel hbs (by omega) hr₁
      unfold alternatives
      rw [if_pos hkind, hseq]
      dsimp only
      rw [halts]
      exact ⟨e :: es, r₂, rfl, .cons he hes, hr₂⟩

/-- Bodies with bars between them are read up to the end of the last one. -/
theorem expression_of_faces (fuel : Nat) {bs : List Body} (hne : bs ≠ [])
    (hbs : ∀ b ∈ bs, b ≠ [] ∧ ∀ s ∈ b, s.IsLetter) (hm : m.1 ∈ bodyEnds) (hbar : m.1 ≠ .sign '|')
    (hfuel : (choiceMarks bs).length + 2 < fuel) (h : r.Faces (choiceMarks bs ++ m :: ms)) :
    ∃ e r', expression fuel r = (e, r') ∧ IsChoice bs e ∧ r'.Faces (m :: ms) := by
  obtain ⟨b, bs, rfl⟩ := List.exists_cons_of_ne_nil hne
  obtain ⟨⟨hbne, hb⟩, hbs⟩ := List.forall_mem_cons.mp hbs
  unfold choiceMarks at hfuel h
  rw [List.length_append, List.length_map] at hfuel
  obtain ⟨fuel, rfl⟩ : ∃ n, fuel = n + 1 := ⟨fuel - 1, by omega⟩
  obtain ⟨m', ms', hend, hm'⟩ := exists_bodyEnd bs hm ms
  rw [List.append_assoc, hend] at h
  obtain ⟨e, r₁, hseq, he, hr₁⟩ := sequence_of_faces fuel hbne hb hm' (by omega) h
  rw [← hend] at hr₁
  obtain ⟨es, r₂, halts, hes, hr₂⟩ := alternatives_of_faces fuel hbs hm hbar (by omega) hr₁
  unfold expression
  rw [hseq]
  dsimp only
  rw [halts]
  cases hes with
  | nil => exact ⟨e, r₂, rfl, .single he, hr₂⟩
  | cons he' hes => exact ⟨_, r₂, rfl, .several (.cons he (.cons he' hes)), hr₂⟩

/-- A single term is read as it is. -/
theorem expression_of_term {e : Expression} {r' : Reading} {fuel : Nat}
    (hterm : term (fuel + 1) r = (some e, r')) (hm : m.1 ∈ bodyEnds) (hbar : m.1 ≠ .sign '|')
    (h : r'.Faces (m :: ms)) : expression (fuel + 4) r = (e, r') := by
  have hkind : r'.current.kind ≠ .sign '|' := by
    rw [h.kind]
    exact hbar
  have hend : terms (fuel + 1) r' = ([], r') := by
    unfold terms
    rw [term_eq_none h hm]
  have hterms : terms (fuel + 2) r = ([e], r') := by
    unfold terms
    rw [hterm]
    dsimp only
    rw [hend]
  have hseq : sequence (fuel + 3) r = (e, r') := by
    unfold sequence
    rw [hterms]
  have halts : alternatives (fuel + 3) r' = ([], r') := by
    unfold alternatives
    rw [if_neg hkind]
  unfold expression
  rw [hseq]
  dsimp only
  rw [halts]
  rfl

/-! ## Productions -/

/-- The empty literal is read as a term without a character. -/
theorem term_of_empty (h : r.Faces (emptyMark :: m :: ms)) (hm : m.1 ≠ ellipsis) (fuel : Nat) :
    ∃ place, term (fuel + 1) r = (some (.token place []), r.next) := by
  have hkind : r.current.kind = .string := h.kind
  have hnext : r.next.current.kind ≠ ellipsis := by
    rw [(h.next (by simp)).kind]
    exact hm
  have hvalue : literalValue r.current = [] := by
    unfold literalValue
    rw [h.text]
    rfl
  unfold term
  rw [hkind]
  dsimp only
  rw [if_neg hnext, hvalue]
  exact ⟨_, rfl⟩

/-- Bodies in square brackets are read as an option. -/
theorem term_of_option (fuel : Nat) {bs : List Body} (hne : bs ≠ [])
    (hbs : ∀ b ∈ bs, b ≠ [] ∧ ∀ s ∈ b, s.IsLetter) (hfuel : (choiceMarks bs).length + 2 < fuel)
    (h : r.Faces (signMark '[' :: (choiceMarks bs ++ signMark ']' :: m :: ms))) :
    ∃ e r', term (fuel + 1) r = (some (.option e), r') ∧ IsChoice bs e ∧ r'.Faces (m :: ms) := by
  have hkind : r.current.kind = .sign '[' := h.kind
  obtain ⟨e, r', hexp, he, hr'⟩ := expression_of_faces fuel hne hbs (by decide) (by decide) hfuel
    (h.next (by simp))
  unfold term
  rw [hkind]
  dsimp only
  rw [hexp]
  exact ⟨e, _, rfl, he, hr'.expect rfl (by simp)⟩

/-- The right side of a production is read up to the point. -/
theorem expression_of_right (fuel : Nat) {bodies : List Body} (hne : bodies ≠ [])
    (hbodies : ∀ b ∈ bodies, ∀ s ∈ b, s.IsLetter) (hfuel : (alternativesMarks bodies).length + 4 < fuel)
    (h : r.Faces (alternativesMarks bodies ++ signMark '.' :: ms)) :
    ∃ e r', expression fuel r = (e, r') ∧ IsRight bodies e ∧ r'.Faces (signMark '.' :: ms) := by
  have hwritten := written_letters hbodies
  obtain ⟨fuel, rfl⟩ : ∃ n, fuel = n + 4 := ⟨fuel - 4, by omega⟩
  unfold alternativesMarks at hfuel h
  by_cases hnil : [] ∈ bodies
  · rw [if_pos hnil] at hfuel h
    by_cases hnone : writtenBodies bodies = []
    · rw [if_pos hnone] at h
      obtain ⟨place, hterm⟩ := term_of_empty h (by decide) fuel
      have hr' := h.next (by simp)
      exact ⟨_, r.next, expression_of_term hterm (by decide) (by decide) hr',
        .empty hnil hnone place, hr'⟩
    · rw [if_neg hnone] at hfuel h
      rw [List.length_cons, List.length_append, List.length_singleton] at hfuel
      rw [List.cons_append, List.append_assoc] at h
      obtain ⟨e, r', hterm, he, hr'⟩ := term_of_option fuel hnone hwritten (by omega) h
      exact ⟨_, r', expression_of_term hterm (by decide) (by decide) hr', .option hnil he, hr'⟩
  · rw [if_neg hnil] at hfuel h
    obtain ⟨e, r', hexp, he, hr'⟩ := expression_of_faces (fuel + 4) (writtenBodies_ne_nil hne hnil)
      hwritten (by decide) (by decide) (by omega) h
    exact ⟨e, r', hexp, .plain hnil he, hr'⟩

/-- A right side does not start with a point. -/
theorem exists_first {bodies : List Body} (hne : bodies ≠ []) :
    ∃ m ms, alternativesMarks bodies = m :: ms ∧ m.1 ≠ .sign '.' := by
  unfold alternativesMarks
  by_cases hnil : [] ∈ bodies
  · rw [if_pos hnil]
    by_cases hnone : writtenBodies bodies = []
    · rw [if_pos hnone]
      exact ⟨emptyMark, [], rfl, by decide⟩
    · rw [if_neg hnone]
      exact ⟨signMark '[', _, rfl, by decide⟩
  · -- the first mark is that of the first symbol of the first body
    obtain ⟨b, bs, hbs⟩ := List.exists_cons_of_ne_nil (writtenBodies_ne_nil hne hnil)
    have hb : b ≠ [] := (mem_writtenBodies.mp (hbs ▸ List.mem_cons_self)).2
    obtain ⟨s, b, rfl⟩ := List.exists_cons_of_ne_nil hb
    rw [if_neg hnil, hbs]
    exact ⟨symbolMark s, _, rfl, symbolMark_ne_sign s '.'⟩

/-- The production of a nonterminal is read up to the next one. -/
theorem production_of_faces {e : Symbol × List Body} (hne : e.2 ≠ [])
    (hbodies : ∀ b ∈ e.2, ∀ s ∈ b, s.IsLetter) (hms : ms ≠ []) (h : r.Faces (productionMarks e ++ ms)) :
    ∃ p r', production r = (p, r') ∧ IsProduction e p ∧ r'.Faces ms := by
  unfold productionMarks at h
  rw [List.cons_append, List.cons_append, List.append_assoc] at h
  have hname : Glyph.text r.current.text = e.1.text := by
    rw [h.text, Glyph.text_ofString]
  have hright : ((r.expect .ident).expect (.sign '=')).Faces
      (alternativesMarks e.2 ++ signMark '.' :: ms) := (h.expect rfl (by simp)).expect rfl (by simp)
  have hpoint : ((r.expect .ident).expect (.sign '=')).current.kind ≠ .sign '.' := by
    obtain ⟨m', ms', hfirst, hm'⟩ := exists_first hne
    rw [hfirst] at hright
    rw [hright.kind]
    exact hm'
  -- the marks of the right side are among those that the fuel is counted from
  have hfuel : (alternativesMarks e.2).length + 4 < ((r.expect .ident).expect (.sign '=')).fuel := by
    have hlen := hright.length
    rw [List.length_append, List.length_cons] at hlen
    unfold Reading.fuel
    omega
  obtain ⟨body, r', hexp, hbody, hr'⟩ := expression_of_right _ hne hbodies hfuel hright
  unfold production
  dsimp only
  rw [if_neg hpoint, hexp]
  exact ⟨_, _, rfl, ⟨hname, hbody⟩, hr'.expect rfl hms⟩

/-- The productions of different nonterminals are read up to the end of the text. -/
theorem productions_of_faces (count : Nat) (known : List Production) {g : Grammar}
    {entries : List (Symbol × List Body)} (hentries : ∀ e ∈ entries, e ∈ g.entries)
    (hnd : (entries.map fun e => e.1.text).Nodup) (hknown : ∀ p ∈ known, ∀ e ∈ entries, p.name ≠ e.1.text)
    (hcount : entries.length ≤ count) (h : r.Faces (entries.flatMap productionMarks ++ [endMark])) :
    ∃ ps r', productions count known r = (known ++ ps, r') ∧ List.Forall₂ IsProduction entries ps ∧
      r'.complaints = [] := by
  induction entries generalizing r known count with
  | nil =>
      have hkind : r.current.kind = .eof := h.kind
      refine ⟨[], r, ?_, .nil, h.quiet⟩
      rw [List.append_nil]
      cases count with
      | zero => rfl
      | succ count =>
          unfold productions
          rw [if_pos hkind]
  | cons e entries ih =>
      obtain ⟨he, hentries⟩ := List.forall_mem_cons.mp hentries
      rw [List.map_cons, List.nodup_cons] at hnd
      rw [List.length_cons] at hcount
      obtain ⟨count, rfl⟩ : ∃ n, count = n + 1 := ⟨count - 1, by omega⟩
      rw [List.flatMap_cons, List.append_assoc] at h
      have hkind : r.current.kind = .ident := h.kind
      have hbodies : ∀ b ∈ e.2, ∀ s ∈ b, s.IsLetter := fun b hb => g.wellFormed.entry_letter he hb
      obtain ⟨p, r₁, hp, hep, hr₁⟩ := production_of_faces (g.wellFormed.entry_ne_nil he) hbodies
        (by simp) h
      -- the name is a new one
      have hnew : ¬ (known.any fun q => q.name = p.name) = true := by
        rw [List.any_eq_true]
        rintro ⟨q, hq, heq⟩
        apply hknown q hq e List.mem_cons_self
        rw [← hep.name]
        exact of_decide_eq_true heq
      have hknown' : ∀ q ∈ known ++ [p], ∀ e' ∈ entries, q.name ≠ e'.1.text := by
        intro q hq e' he'
        rcases List.mem_append.mp hq with hq | hq
        · exact hknown q hq e' (List.mem_cons_of_mem e he')
        · rw [List.mem_singleton.mp hq, hep.name]
          intro heq
          exact hnd.1 (heq ▸ List.mem_map_of_mem he')
      obtain ⟨ps, r₂, hps, hall, hquiet⟩ := ih count _ hentries hnd.2 hknown' (by omega) hr₁
      refine ⟨p :: ps, r₂, ?_, .cons hep hall, hquiet⟩
      unfold productions
      rw [if_neg (by rw [hkind]; decide), hp]
      dsimp only
      rw [if_neg hnew, hps, List.append_assoc]
      rfl

/-- A production has a mark at least. -/
theorem length_le_marks (entries : List (Symbol × List Body)) :
    entries.length ≤ (entries.flatMap productionMarks).length := by
  induction entries with
  | nil => exact Nat.le_refl 0
  | cons e entries ih =>
      have hpos : 0 < (productionMarks e).length := by simp [productionMarks]
      rw [List.flatMap_cons, List.length_append, List.length_cons]
      omega

/-- **The productions of a written grammar** are those of its nonterminals, one for each and in the same
    order. -/
theorem parse_write (g : Grammar) (filename : String) :
    ∃ ps, parse filename (Glyph.ofString (write g)) = .ok ps ∧ List.Forall₂ IsProduction g.entries ps := by
  have hmarks := map_mark_tokenize_write g filename
  unfold parse
  cases htokens : (tokenize filename (Glyph.ofString (write g))).list with
  | nil =>
      rw [htokens] at hmarks
      exact absurd hmarks.symm (by simp [grammarMarks])
  | cons t ts =>
      rw [htokens] at hmarks
      have hfaces : (⟨t, ts, []⟩ : Reading).Faces (g.entries.flatMap productionMarks ++ [endMark]) :=
        ⟨hmarks, rfl⟩
      have hnd : (g.entries.map fun e => e.1.text).Nodup := by
        have htexts := g.wellFormed.nodup_text
        rw [← g.wellFormed.map_fst_entries, List.map_map] at htexts
        exact htexts
      have hcount : g.entries.length ≤ ts.length + 1 := by
        rw [hfaces.length, List.length_append]
        exact Nat.le_add_right_of_le (length_le_marks g.entries)
      obtain ⟨ps, r', hps, hall, hquiet⟩ := productions_of_faces (ts.length + 1) [] (fun _ he => he) hnd
        (by simp) hcount hfaces
      unfold ofTokens
      dsimp only
      rw [hps, hquiet]
      exact ⟨ps, rfl, hall⟩

end Ebnf
end LetterGrammar
