import LetterGrammar.Proofs.Greibach.Language

/-!
# The shape of a converted grammar

What can be told of a converted grammar without a look at its words: which letters it has and in which
order, that all of them are in use, and the form and the order of its bodies. The order of the letters
comes from the ranks and the hand-out of fresh letters, the use of all of them from the pruning, and the
order of the bodies from the sorting at the end.

## Contents

- **`Parts.Reached`**: a symbol can be reached from the start symbol.
- **`Sound.reflTransGen_result`**: pruning keeps every path from the start.
- **`lettersBelow_sublist`**, **`Sound.nonterminals_result`**: the letters and their order.
- **`Converted`**, **`converted_convert`**: the shape, and that conversions give it.
- **`toGreibach_shape`**: the shape of a grammar converted from one in Chomsky form.
-/

namespace LetterGrammar

open RuleTable

/-! ## Reachable symbols -/

/-- The symbol can be reached from the start symbol, going from a nonterminal to those in its bodies. -/
def Parts.Reached (p : Parts) (s : Symbol) : Prop :=
  ∃ start, p.start? = some start ∧ Relation.ReflTransGen (Mentions p.entries) start s

theorem Parts.reached_iff {p : Parts} {start s : Symbol} (h : p.start? = some start) :
    p.Reached s ↔ Relation.ReflTransGen (Mentions p.entries) start s := by
  constructor
  · rintro ⟨start', hstart', hpath⟩
    rw [h] at hstart'
    injection hstart' with heq
    exact heq ▸ hpath
  · intro hpath
    exact ⟨start, h, hpath⟩

/-- Parts with nonterminals have a start symbol. -/
theorem Parts.exists_start {p : Parts} (hne : p.nonterminals ≠ []) : ∃ start, p.start? = some start := by
  obtain ⟨start, rest, hnts⟩ := List.exists_cons_of_ne_nil hne
  refine ⟨start, ?_⟩
  unfold Parts.start?
  rw [hnts]
  rfl

namespace Conversion

namespace Sound

variable {terminals : List Symbol} {c₀ c : Conversion} {first : Symbol} {rest : List Symbol}
variable (hs : Sound terminals c₀ c)
include hs

/-- **Pruning keeps every path from the start**: what lies on such a path is kept, with its bodies. -/
theorem reflTransGen_result (hr : c.ranked = first :: rest) {s : Symbol}
    (h : Relation.ReflTransGen c.rules.Mentions first s) :
    Relation.ReflTransGen (Mentions (c.result terminals).entries) first s := by
  induction h with
  | refl => exact .refl
  | @tail a s hpath hm ih =>
      obtain ⟨hupper, b, hb, hsb⟩ := hm
      have hkept : a ∈ c.heads.filter c.keeps := by
        apply List.mem_filter.mpr
        constructor
        · rw [← hs.table_heads]
          exact mem_heads_of_mem_bodies hb
        · exact (keeps_iff hr).mpr (mem_reachable_iff.mpr hpath)
      exact ih.tail ⟨hupper, b, (hs.mem_bodies_result hkept).mpr hb, hsb⟩

/-- Every nonterminal of the result can be reached from its start symbol. -/
theorem reached_result {s : Symbol} (h : s ∈ (c.result terminals).nonterminals) :
    (c.result terminals).Reached s := by
  have hkeep : c.keeps s = true := (List.mem_filter.mp h).2
  cases hr : c.ranked with
  | nil =>
      -- without ranks nothing is kept
      unfold keeps at hkeep
      rw [hr] at hkeep
      cases hkeep
  | cons first rest =>
      refine ⟨first, start?_result hr, hs.reflTransGen_result hr ?_⟩
      exact mem_reachable_iff.mp ((keeps_iff hr).mp hkeep)

/-! ## Letters -/

omit hs in
/-- More letters downwards start with fewer of them. -/
theorem lettersBelow_sublist {n k m : Nat} (h : k ≤ m) :
    (lettersBelow n k).Sublist (lettersBelow n m) :=
  (List.range_sublist.mpr h).map _

/-- **The letters of the result**: letters of ranks upwards from the first one, then fresh letters
    downwards. -/
theorem nonterminals_result {n : Nat} (hn : 0 < n) (hr : c.ranked = lastLetters n) :
    ∃ ranked fresh, (c.result terminals).nonterminals = ranked ++ fresh ∧
      ranked.Sublist (lastLetters n) ∧ ranked.head? = some (rankLetter n 0) ∧
      fresh.Sublist (lettersBelow n (26 - n)) := by
  refine ⟨c.ranked.filter c.keeps, c.auxiliary.filter c.keeps, List.filter_append .., ?_, ?_, ?_⟩
  · rw [hr]
    exact List.filter_sublist
  · -- the first rank reaches itself
    have hhead : c.ranked.head? = some (rankLetter n 0) := by
      rw [hr, List.head?_eq_getElem?, getElem?_lastLetters hn]
    obtain ⟨rest, hrest⟩ := List.head?_eq_some_iff.mp hhead
    have hkeep : c.keeps (rankLetter n 0) = true := (keeps_iff hrest).mpr (mem_reachable_iff.mpr .refl)
    rw [hrest, List.filter_cons_of_pos hkeep]
    rfl
  · have hlen : c.ranked.length + c.auxiliary.length ≤ 26 := by
      rw [← List.length_append]
      exact hs.length_heads_le
    have hcount : c.ranked.length = n := by rw [hr, length_lastLetters]
    have hdown := hs.auxiliary_eq
    rw [hcount] at hdown hlen
    have hall : c.auxiliary.Sublist (lettersBelow n (26 - n)) := by
      rw [hdown]
      exact lettersBelow_sublist (by omega)
    exact List.filter_sublist.trans hall

end Sound

end Conversion

open Conversion

/-! ## The shape -/

/-- The parts of a grammar that was converted from one with `n` nonterminals over the given
    terminals. -/
structure Converted (n : Nat) (terminals : List Symbol) (p : Parts) : Prop where
  terminals_eq : p.terminals = terminals
  /-- Letters of ranks upwards from that of the start symbol, then fresh letters downwards. -/
  letters : ∃ ranked fresh, p.nonterminals = ranked ++ fresh ∧
    ranked.Sublist (lastLetters n) ∧ ranked.head? = some (rankLetter n 0) ∧
    fresh.Sublist (lettersBelow n (26 - n))
  reached : ∀ s ∈ p.nonterminals, p.Reached s
  /-- A body is a terminal with nonterminals after it. -/
  grounded : ∀ bodies ∈ p.productions, ∀ b ∈ bodies, ∃ x rest, b = x :: rest ∧ x ∈ p.terminals ∧
    ∀ y ∈ rest, y ∈ p.nonterminals
  /-- The bodies of a nonterminal are in byte order. -/
  increasing : ∀ bodies ∈ p.productions, bodies.Pairwise fun a b => bytes a.chars < bytes b.chars
  distinct : ∀ bodies ∈ p.productions, bodies.Nodup

/-- The letter of the start symbol is left. -/
theorem Converted.nonterminals_ne_nil {n : Nat} {terminals : List Symbol} {p : Parts}
    (h : Converted n terminals p) : p.nonterminals ≠ [] := by
  obtain ⟨ranked, fresh, hnts, _, hhead, _⟩ := h.letters
  intro hnil
  rw [hnts, List.append_eq_nil_iff] at hnil
  rw [hnil.1] at hhead
  cases hhead

/-- The bodies of a grammar in Greibach form are terminals with nonterminals after them. -/
theorem Greibach.body_cases (r : Greibach) {bodies : List Body} {b : Body}
    (hbodies : bodies ∈ r.grammar.productions) (hb : b ∈ bodies) :
    ∃ x rest, b = x :: rest ∧ x ∈ r.grammar.terminals ∧ ∀ y ∈ rest, y ∈ r.grammar.nonterminals := by
  have hform : r.grammar.isGreibachBody b = true :=
    List.all_eq_true.mp r.form b (List.mem_flatten.mpr ⟨bodies, hbodies, hb⟩)
  cases b with
  | nil => cases hform
  | cons x rest =>
      obtain ⟨hx, hrest⟩ := Bool.and_eq_true_iff.mp hform
      refine ⟨x, rest, rfl, List.contains_iff_mem.mp hx, ?_⟩
      intro y hy
      exact List.contains_iff_mem.mp (List.all_eq_true.mp hrest y hy)

/-- **A conversion gives a grammar of this shape**, whatever the form of the grammar it is given. -/
theorem converted_convert {on : Bool} {g : Grammar} {r : Greibach} (hne : g.nonterminals ≠ [])
    (h : (convert on g).result = .ok r) :
    Converted g.nonterminals.length g.terminals r.grammar.toParts := by
  obtain ⟨c, hs, hparts⟩ := convert_ok_state h
  have hpos : 0 < g.nonterminals.length := List.length_pos_iff.mpr hne
  have hsorted : ∀ bodies ∈ r.grammar.productions,
      bodies.Pairwise fun a b => bytes a.chars < bytes b.chars := by
    rw [hparts]
    intro bodies hbodies
    obtain ⟨nt, _, rfl⟩ := List.mem_map.mp hbodies
    exact Body.canonical_strict _
  exact {
    terminals_eq := by rw [hparts]; rfl
    letters := by
      rw [hparts]
      exact hs.nonterminals_result hpos hs.ranked_eq
    reached := by
      rw [hparts]
      intro s hmem
      exact hs.reached_result hmem
    grounded := by
      intro bodies hbodies b hb
      exact r.body_cases hbodies hb
    increasing := hsorted
    distinct := by
      intro bodies hbodies
      refine (hsorted bodies hbodies).imp ?_
      intro a b hlt heq
      rw [heq] at hlt
      exact List.lt_irrefl _ hlt }

/-- **The shape of a grammar converted from one in Chomsky form.** It has the same terminals. Its
    nonterminals are letters of ranks, upwards from the one that stands for the start symbol, and then
    fresh letters, downwards; each of them can be reached from the start symbol. Its bodies are
    terminals with nonterminals after them, and those of each nonterminal are in strict byte order. -/
theorem toGreibach_shape (c : Chomsky) (settings : List Setting) {r : Greibach}
    (hne : c.grammar.nonterminals ≠ []) (h : (c.toGreibach settings).result = .ok r) :
    Converted c.grammar.nonterminals.length c.grammar.terminals r.grammar.toParts := by
  rw [Chomsky.toGreibach_result, bind_eq_ok_iff] at h
  obtain ⟨s, _, hconvert⟩ := h
  exact converted_convert hne hconvert

/-- A left recursive nonterminal that is in use only in the lead of bodies, so that its fresh letter
    stays and its own letter goes: `S → A B | a`, `A → A A | a` and `B → b`. -/
def leadOnlyParts : Parts where
  terminals := Body.ofText "ab"
  nonterminals := Body.ofText "SAB"
  productions := [[Body.ofText "AB", Body.ofText "a"], [Body.ofText "AA", Body.ofText "a"],
    [Body.ofText "b"]]

def leadOnly : Chomsky := ⟨⟨leadOnlyParts, false, by decide⟩, by decide⟩

theorem toGreibach_shape_leadOnly :
    leadOnly.grammar.nonterminals ≠ [] ∧
    ∃ r, (leadOnly.toGreibach []).result = .ok r ∧ Converted 3 (Body.ofText "ab") r.grammar.toParts := by
  have hne : leadOnly.grammar.nonterminals ≠ [] := by decide
  refine ⟨hne, ?_⟩
  rcases leadOnly.convert_cases false with ⟨⟨r, hok⟩, _⟩ | ⟨_, hfull⟩
  · have hresult : (leadOnly.toGreibach []).result = .ok r := hok
    exact ⟨r, hresult, toGreibach_shape leadOnly [] hne hresult⟩
  · exact absurd hfull (by decide)

end LetterGrammar
