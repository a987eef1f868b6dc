import LetterGrammar.Proofs.Decoding
import LetterGrammar.Toml.Reader
import LetterGrammar.Toml.Writer
import LetterGrammar.Yaml.Reader
import LetterGrammar.Yaml.Writer

/-!
# Documents and grammars

A grammar and its document determine each other. The entries of a document have no order, so what it
describes does not depend on how they are listed, and nothing in an accepted document is dropped: every
name is a declared nonterminal, and every nonterminal has its entry.

Names are looked for byte by byte. For texts that makes no difference, but a name that is a stray byte
is found inside a declared character that has it among its bytes. Such a name is not refused for what it
is; the document still is, for that character is no letter.

## Contents

- **`StoredText.glyphs_inj`**, **`names_nodup`**: stored texts are told apart by what they are read as.
- **`Entries.list_ofList`**: different names are listed as they are put in.
- **`Document.Names`**, **`Document.Fragment`**: names of nonterminals, and stray bytes of them.
- **`declares_iff`**: the names that are found.
- **`grammar_of_undeclared`**: the least name that is not found is refused.
- **`grammar_ofGrammar`**, **`same_of_grammar`**: from a grammar to its document and back, and the other
  way around.
- **`grammar_congr`**: the order of the entries does not matter.
- **`documents_correspond_to_grammars`**: all of this, and what it means for YAML and TOML.
-/

namespace LetterGrammar

/-! ## Stored texts and entries -/

namespace StoredText

theorem isRead_glyphs (t : StoredText) : Glyph.IsRead t.glyphs := ⟨t.bytes, rfl⟩

/-- No two stored texts are read alike, since no byte is lost. -/
theorem glyphs_inj {t t' : StoredText} (h : t.glyphs = t'.glyphs) : t = t' := by
  obtain ⟨data⟩ := t
  obtain ⟨data'⟩ := t'
  rw [← Glyph.allBytes_decode data, ← Glyph.allBytes_decode data']
  exact congrArg (fun gs => StoredText.mk (Glyph.allBytes gs)) h

/-- What was read is stored and read again. -/
theorem glyphs_ofGlyphs {gs : List Glyph} (h : Glyph.IsRead gs) : (ofGlyphs gs).glyphs = gs :=
  h.decode_allBytes

end StoredText

namespace Entries

theorem putIn_of_not_mem {name : StoredText} {bodies : List String} {l : List (StoredText × List String)}
    (h : name ∉ l.map Prod.fst) : putIn name bodies l = l ++ [(name, bodies)] := by
  induction l with
  | nil => rfl
  | cons e rest ih =>
      rw [List.map_cons, List.mem_cons, not_or] at h
      unfold putIn
      rw [if_neg (Ne.symm h.1), ih h.2]
      rfl

/-- Names that are new and differ from each other are added at the end. -/
theorem list_foldl_put (es : Entries) {l : List (List Glyph × List String)}
    (hnd : (es.list.map Prod.fst ++ l.map fun e => StoredText.ofGlyphs e.1).Nodup) :
    (l.foldl (fun es e => es.put (.ofGlyphs e.1) e.2) es).list =
      es.list ++ l.map fun e => (.ofGlyphs e.1, e.2) := by
  induction l generalizing es with
  | nil => simp
  | cons e rest ih =>
      have hnew : StoredText.ofGlyphs e.1 ∉ es.list.map Prod.fst := by
        intro hm
        exact (List.nodup_append.mp hnd).2.2 _ hm _ List.mem_cons_self rfl
      have hput : (es.put (.ofGlyphs e.1) e.2).list = es.list ++ [(.ofGlyphs e.1, e.2)] :=
        putIn_of_not_mem hnew
      rw [List.foldl_cons, ih, hput, List.append_assoc]
      · rfl
      · rw [hput, List.map_append, List.append_assoc]
        exact hnd

/-- Different names are listed as they are put in. -/
theorem list_ofList {l : List (List Glyph × List String)}
    (hnd : (l.map fun e => StoredText.ofGlyphs e.1).Nodup) :
    (ofList l).list = l.map fun e => (.ofGlyphs e.1, e.2) :=
  list_foldl_put empty hnd

end Entries

namespace Document

variable {d : Document}

theorem isRead_declared (d : Document) : Glyph.IsRead d.declared := d.alphabet.isRead_glyphs

theorem isRead_name {e : List Glyph × List String} (he : e ∈ d.productions) : Glyph.IsRead e.1 := by
  obtain ⟨entry, -, rfl⟩ := List.mem_map.mp he
  exact entry.1.isRead_glyphs

theorem names_nodup (d : Document) : (d.productions.map Prod.fst).Nodup := by
  have hnames : d.productions.map Prod.fst = (d.entries.list.map Prod.fst).map StoredText.glyphs := by
    rw [productions, List.map_map, List.map_map]
    rfl
  rw [hnames]
  exact d.entries.nodup.map_on fun _ _ _ _ => StoredText.glyphs_inj

/-! ## Names -/

/-- The name is a single declared nonterminal. -/
def Names (d : Document) (name : List Glyph) : Prop := ∃ g ∈ d.declared, name = [g]

/-- The name is a stray byte that a declared character has among its bytes. -/
def Fragment (d : Document) (name : List Glyph) : Prop :=
  ∃ b c, name = [.stray b] ∧ .scalar c ∈ d.declared ∧ b ∈ String.utf8EncodeChar c

theorem allBytes_singleton (g : Glyph) : Glyph.allBytes [g] = g.fileBytes := by
  simp [Glyph.allBytes]

theorem declares_singleton_iff {g : Glyph} :
    d.declares [g] = true ↔ g.fileBytes <:+: Glyph.allBytes d.declared := by
  simp [declares, occursIn_iff, allBytes_singleton]

/-- **The names that are found**: declared nonterminals, and stray bytes of declared characters. -/
theorem declares_iff {name : List Glyph} :
    d.declares name = true ↔ d.Names name ∨ d.Fragment name := by
  constructor
  · intro h
    obtain ⟨g, rfl⟩ : ∃ g, name = [g] := by
      rw [declares, Bool.and_eq_true, beq_iff_eq] at h
      exact List.length_eq_one_iff.mp h.1
    rw [declares_singleton_iff] at h
    cases g with
    | scalar c => exact .inl ⟨_, Glyph.mem_of_occurs d.isRead_declared h, rfl⟩
    | stray b =>
      -- a single byte is found inside whatever glyph has it
      obtain ⟨g, hg, hb⟩ := List.mem_flatMap.mp (h.subset List.mem_cons_self)
      cases g with
      | scalar c => exact .inr ⟨b, c, rfl, hg, hb⟩
      | stray b' =>
        obtain rfl : b = b' := List.mem_singleton.mp hb
        exact .inl ⟨_, hg, rfl⟩
  · rintro (⟨g, hg, rfl⟩ | ⟨b, c, rfl, hc, hb⟩)
    · exact declares_singleton_iff.mpr (Glyph.fileBytes_occurs hg)
    · have hpart : [b] <:+: String.utf8EncodeChar c := by
        obtain ⟨before, after, heq⟩ := List.append_of_mem hb
        exact ⟨before, after, by rw [List.append_assoc]; exact heq.symm⟩
      exact declares_singleton_iff.mpr (hpart.trans (Glyph.fileBytes_occurs hc))

/-! ## Entries in byte order -/

theorem mem_sortedEntries {e : List Glyph × List String} : e ∈ d.sortedEntries ↔ e ∈ d.productions :=
  List.mem_mergeSort

theorem sortedEntries_pairwise (d : Document) :
    d.sortedEntries.Pairwise fun a b => Glyph.allBytes a.1 ≤ Glyph.allBytes b.1 :=
  pairwise_mergeSort_key (fun e => Glyph.allBytes e.1) List.le_trans List.le_total d.productions

/-- **Of the names that are not found, the least is refused**, before anything else is looked at. -/
theorem grammar_of_undeclared (h : ∃ e ∈ d.productions, d.declares e.1 = false) :
    ∃ e ∈ d.productions, d.declares e.1 = false ∧
      (∀ e' ∈ d.productions, d.declares e'.1 = false → Glyph.allBytes e.1 ≤ Glyph.allBytes e'.1) ∧
      d.grammar = .error (undeclared e.1) := by
  obtain ⟨e₀, he₀, hout₀⟩ := h
  cases hfind : d.sortedEntries.find? fun e => !d.declares e.1 with
  | none =>
    have hall := List.find?_eq_none.mp hfind e₀ (mem_sortedEntries.mpr he₀)
    rw [hout₀] at hall
    exact absurd rfl hall
  | some e =>
    obtain ⟨hout, before, after, hsplit, hbefore⟩ := List.find?_eq_some_iff_append.mp hfind
    have hsorted := sortedEntries_pairwise d
    rw [hsplit, List.pairwise_append, List.pairwise_cons] at hsorted
    refine ⟨e, ?_, by simpa using hout, ?_, ?_⟩
    · rw [← mem_sortedEntries, hsplit]
      simp
    · intro e' he' hout'
      rw [← mem_sortedEntries, hsplit, List.mem_append, List.mem_cons] at he'
      rcases he' with he' | rfl | he'
      · have hin := hbefore e' he'
        rw [hout'] at hin
        cases hin
      · exact List.le_refl _
      · exact hsorted.2.1.1 e' he'
    · rw [grammar, hfind]

/-- The parts a document spells. -/
def parts (d : Document) : Parts where
  terminals := Body.ofText d.terminals
  nonterminals := Body.ofText d.nonterminals
  productions := (d.nonterminals.toList.map d.bodiesOf).map (·.map Body.ofText)

/-- Once all names are found, the grammar is that with the parts spelled. -/
theorem grammar_of_declared (h : ∀ e ∈ d.productions, d.declares e.1 = true) :
    d.grammar = Grammar.build d.parts := by
  have hfind : (d.sortedEntries.find? fun e => !d.declares e.1) = none := by
    refine List.find?_eq_none.mpr fun e he => ?_
    rw [h e (mem_sortedEntries.mp he)]
    decide
  rw [grammar, hfind]
  rfl

/-! ## The document of a grammar -/

/-- The name of a nonterminal is a single glyph. -/
theorem ofString_text (s : Symbol) : Glyph.ofString s.text = [.scalar s.toChar] := by
  rw [Glyph.ofString, Symbol.toList_text]
  rfl

theorem declared_ofGrammar (g : Grammar) :
    (ofGrammar g).declared = Glyph.ofString (Body.text g.nonterminals) :=
  StoredText.glyphs_ofGlyphs (Glyph.isRead_ofString _)

theorem nonterminals_ofGrammar (g : Grammar) : (ofGrammar g).nonterminals = Body.text g.nonterminals := by
  rw [nonterminals, declared_ofGrammar]
  exact Glyph.text_ofString _

/-- The entries are those of the grammar, nonterminal by nonterminal. -/
theorem productions_ofGrammar (g : Grammar) :
    (ofGrammar g).productions = g.entries.map fun e => ([.scalar e.1.toChar], e.2.map Body.text) := by
  have hread : ∀ s : Symbol,
      (StoredText.ofGlyphs (Glyph.ofString s.text)).glyphs = [.scalar s.toChar] := by
    intro s
    rw [StoredText.glyphs_ofGlyphs (Glyph.isRead_ofString _), ofString_text]
  have hnd : (g.nonterminals.map fun s => StoredText.ofGlyphs (Glyph.ofString s.text)).Nodup := by
    refine g.wellFormed.nonterminals_nodup.map_on fun s hs s' hs' heq => ?_
    have hchar := congrArg StoredText.glyphs heq
    rw [hread, hread] at hchar
    injection List.singleton_inj.mp hchar with hchar
    exact (g.wellFormed.isScalar_nonterminal hs).toChar_inj (g.wellFormed.isScalar_nonterminal hs') hchar
  rw [← g.wellFormed.map_fst_entries, List.map_map] at hnd
  rw [productions, ofGrammar, Entries.list_ofList (by rw [List.map_map]; exact hnd), List.map_map,
    List.map_map]
  exact List.map_congr_left fun e _ => Prod.ext (hread e.1) rfl

theorem bodiesOf_ofGrammar {g : Grammar} {e : Symbol × List Body} (he : e ∈ g.entries) :
    (ofGrammar g).bodiesOf e.1.toChar = e.2.map Body.text := by
  have hmem : ([Glyph.scalar e.1.toChar], e.2.map Body.text) ∈ (ofGrammar g).productions := by
    rw [productions_ofGrammar]
    exact List.mem_map.mpr ⟨e, he, rfl⟩
  rw [bodiesOf, RuleTable.lookup_eq_some_of_mem (ofGrammar g).names_nodup hmem]
  rfl

theorem declares_ofGrammar {g : Grammar} {e : List Glyph × List String}
    (he : e ∈ (ofGrammar g).productions) : (ofGrammar g).declares e.1 = true := by
  rw [productions_ofGrammar] at he
  obtain ⟨entry, hentry, rfl⟩ := List.mem_map.mp he
  refine declares_iff.mpr (.inl ⟨.scalar entry.1.toChar, ?_, rfl⟩)
  rw [declared_ofGrammar, Glyph.ofString, Body.toList_text]
  exact List.mem_map_of_mem (List.mem_map_of_mem (List.of_mem_zip hentry).1)

/-- What is printed is spelled as before: alphabets and, entry by entry, bodies. -/
theorem parts_ofGrammar (g : Grammar) : (ofGrammar g).parts = g.toParts := by
  have hwf := g.wellFormed
  have hsets : (ofGrammar g).nonterminals.toList.map (ofGrammar g).bodiesOf =
      g.entries.map fun e => e.2.map Body.text := by
    rw [nonterminals_ofGrammar, Body.toList_text, Body.chars, ← hwf.map_fst_entries, List.map_map,
      List.map_map]
    exact List.map_congr_left fun e he => bodiesOf_ofGrammar he
  have hspelled : ∀ e ∈ g.entries, (e.2.map Body.text).map Body.ofText = e.2 := by
    intro e he
    rw [List.map_map]
    refine (List.map_congr_left fun b hb => ?_).trans (List.map_id _)
    exact Body.ofText_text fun s hs => (hwf.entry_letter he hb s hs).isScalar
  have hterminals : Body.ofText (Body.text g.terminals) = g.terminals :=
    Body.ofText_text fun s hs => Symbol.isScalar_of_isLower (hwf.terminals_lower s hs)
  have hnonterminals : Body.ofText (Body.text g.nonterminals) = g.nonterminals :=
    Body.ofText_text fun s hs => hwf.isScalar_nonterminal hs
  have hproductions : (g.entries.map fun e => e.2.map Body.text).map (·.map Body.ofText) =
      g.productions := by
    rw [List.map_map, ← hwf.map_snd_entries]
    exact List.map_congr_left hspelled
  rw [parts, hsets, nonterminals_ofGrammar, hnonterminals, hproductions]
  show Parts.mk (Body.ofText (Body.text g.terminals)) _ _ = _
  rw [hterminals]

/-- **The document of a grammar describes it**, without the regularity mark. -/
theorem grammar_ofGrammar (g : Grammar) : (ofGrammar g).grammar = .ok (g.withRegular false) := by
  rw [grammar_of_declared fun e he => declares_ofGrammar he, parts_ofGrammar,
    Grammar.build_of_fault?_eq_none g.valid]
  rfl

/-! ## The order of the entries -/

/-- The documents have the same alphabets and, in whatever order, the same entries. -/
structure Same (d d' : Document) : Prop where
  terminals : d.terminals = d'.terminals
  declared : d.declared = d'.declared
  productions : d.productions.Perm d'.productions

section

variable {d' : Document} (h : d'.Same d)
include h

/-- The byte order tells the entries apart, so it leaves one way to list them. -/
theorem sortedEntries_congr : d'.sortedEntries = d.sortedEntries := by
  have hperm : d'.sortedEntries.Perm d.sortedEntries :=
    (List.mergeSort_perm _ _).trans (h.productions.trans (List.mergeSort_perm _ _).symm)
  refine List.Perm.eq_of_pairwise ?_ (sortedEntries_pairwise d') (sortedEntries_pairwise d) hperm
  intro a b ha hb hab hba
  -- equal bytes are read as equal names, and a name occurs once
  have ha : a ∈ d.productions := h.productions.subset (mem_sortedEntries.mp ha)
  have hb : b ∈ d.productions := mem_sortedEntries.mp hb
  have hname : a.1 = b.1 := by
    rw [← (isRead_name ha).decode_allBytes, List.le_antisymm hab hba, (isRead_name hb).decode_allBytes]
  exact List.inj_on_of_nodup_map d.names_nodup ha hb hname

theorem bodiesOf_congr (c : Char) : d'.bodiesOf c = d.bodiesOf c := by
  have hlookup : d'.productions.lookup [.scalar c] = d.productions.lookup [.scalar c] := by
    ext bodies
    rw [RuleTable.lookup_eq_some_iff_mem d'.names_nodup, RuleTable.lookup_eq_some_iff_mem d.names_nodup,
      h.productions.mem_iff]
  rw [bodiesOf, bodiesOf, hlookup]

/-- **What a document describes does not depend on the order of its entries.** -/
theorem grammar_congr : d'.grammar = d.grammar := by
  have hdeclares : d'.declares = d.declares := by
    funext name
    rw [declares, declares, h.declared]
  have hread : d'.nonterminals = d.nonterminals := by rw [nonterminals, nonterminals, h.declared]
  have hbodies : d'.bodiesOf = d.bodiesOf := funext fun c => bodiesOf_congr h c
  rw [grammar, grammar, sortedEntries_congr h, hdeclares, hread, hbodies, h.terminals]

end

/-! ## From a document to its grammar and back -/

/-- In a document that describes a grammar all names are found, and the grammar has the parts spelled. -/
theorem grammar_eq_ok {r : Grammar} (h : d.grammar = .ok r) :
    (∀ e ∈ d.productions, d.declares e.1 = true) ∧ r.toParts = d.parts := by
  have hdeclared : ∀ e ∈ d.productions, d.declares e.1 = true := by
    intro e he
    refine Bool.of_not_eq_false fun hout => ?_
    obtain ⟨_, _, _, _, herror⟩ := grammar_of_undeclared ⟨e, he, hout⟩
    rw [herror] at h
    cases h
  rw [grammar_of_declared hdeclared] at h
  exact ⟨hdeclared, (Grammar.build_eq_ok_iff.mp h).1⟩

/-- The entries of the document of that grammar, by the nonterminals of the document given. -/
theorem productions_described {r : Grammar} (h : d.grammar = .ok r) :
    (ofGrammar r).productions = d.nonterminals.toList.map fun c => ([.scalar c], d.bodiesOf c) := by
  have hname : ∀ c, [Glyph.scalar (Symbol.ofChar c).toChar] = [.scalar c] := by
    intro c
    rw [Symbol.toChar_ofChar]
  have hbodies : ∀ bodies : List String, (bodies.map Body.ofText).map Body.text = bodies := by
    intro bodies
    rw [List.map_map]
    exact (List.map_congr_left fun b _ => Body.text_ofText b).trans (List.map_id _)
  rw [productions_ofGrammar, Parts.entries, (grammar_eq_ok h).2, parts]
  dsimp only
  rw [Body.ofText, List.map_map, List.zip_map', List.map_map]
  exact List.map_congr_left fun c _ => Prod.ext (hname c) (hbodies (d.bodiesOf c))

theorem upper_of_grammar {r : Grammar} (h : d.grammar = .ok r) :
    ∀ s ∈ Body.ofText d.nonterminals, s.isUpper = true := by
  have hupper := r.wellFormed.nonterminals_upper
  rwa [(grammar_eq_ok h).2] at hupper

theorem mem_ofText_nonterminals {s : Symbol} :
    s ∈ Body.ofText d.nonterminals ↔ ∃ g ∈ d.declared, Symbol.ofChar g.char = s := by
  rw [Body.ofText, nonterminals, Glyph.text, String.toList_ofList, List.map_map, List.mem_map]
  rfl

/-- Nonterminals that are read as letters are stored as letters. -/
theorem exists_scalar (h : ∀ s ∈ Body.ofText d.nonterminals, s.isUpper = true) {g : Glyph}
    (hg : g ∈ d.declared) : ∃ c, g = .scalar c ∧ (Symbol.ofChar c).isUpper = true := by
  have hupper := h _ (mem_ofText_nonterminals.mpr ⟨g, hg, rfl⟩)
  cases g with
  | scalar c => exact ⟨c, rfl, hupper⟩
  | stray b =>
    have hout : (Symbol.ofChar replacementChar).isUpper = false := by decide
    cases hout.symm.trans hupper

theorem declared_eq (h : ∀ s ∈ Body.ofText d.nonterminals, s.isUpper = true) :
    Glyph.ofString d.nonterminals = d.declared := by
  rw [Glyph.ofString, nonterminals, Glyph.text, String.toList_ofList, List.map_map]
  refine (List.map_congr_left fun g hg => ?_).trans (List.map_id _)
  obtain ⟨c, rfl, -⟩ := exists_scalar h hg
  rfl

/-- A letter has no stray bytes: with such a name, not all nonterminals are letters. -/
theorem not_upper_of_fragment {e : List Glyph × List String} (he : e ∈ d.productions)
    (h : d.Fragment e.1) : ∃ s ∈ Body.ofText d.nonterminals, s.isUpper = false := by
  obtain ⟨b, c, hname, hc, hb⟩ := h
  have hbyte : 0x80 ≤ b.toNat := by
    apply Glyph.le_of_isRead_stray
    rw [← hname]
    exact isRead_name he
  refine ⟨Symbol.ofChar c, mem_ofText_nonterminals.mpr ⟨_, hc, rfl⟩, Bool.eq_false_iff.mpr ?_⟩
  intro hupper
  have hcode : c.toNat ≤ 90 := Int.ofNat_le.mp (Symbol.isUpper_iff.mp hupper).2
  have hlt : b.toNat < 0x80 := Glyph.lt_of_mem_encodeChar (by omega) hb
  omega

/-- In a document that describes a grammar, the entries are those of its nonterminals. -/
theorem mem_productions_iff {r : Grammar} (h : d.grammar = .ok r) {e : List Glyph × List String} :
    e ∈ d.productions ↔ ∃ c ∈ d.nonterminals.toList, e = ([.scalar c], d.bodiesOf c) := by
  obtain ⟨hdeclared, hparts⟩ := grammar_eq_ok h
  have hupper := upper_of_grammar h
  constructor
  · intro he
    rcases declares_iff.mp (hdeclared e he) with ⟨g, hg, hname⟩ | hfragment
    · obtain ⟨c, rfl, -⟩ := exists_scalar hupper hg
      refine ⟨c, ?_, Prod.ext hname ?_⟩
      · rw [nonterminals, Glyph.text, String.toList_ofList]
        exact List.mem_map.mpr ⟨_, hg, rfl⟩
      · have hlookup : d.productions.lookup [.scalar c] = some e.2 := by
          rw [← hname]
          exact RuleTable.lookup_eq_some_of_mem d.names_nodup he
        rw [bodiesOf, hlookup]
        rfl
    · obtain ⟨s, hs, hout⟩ := not_upper_of_fragment he hfragment
      rw [hupper s hs] at hout
      cases hout
  · rintro ⟨c, hc, rfl⟩
    -- a nonterminal without an entry has no bodies, and the grammar has some for it
    have hne : d.bodiesOf c ≠ [] := by
      intro hnil
      have hset : (d.bodiesOf c).map Body.ofText ∈ r.productions := by
        rw [hparts]
        exact List.mem_map_of_mem (List.mem_map_of_mem hc)
      rw [hnil] at hset
      exact r.wellFormed.sets_nonempty _ hset rfl
    cases hlookup : d.productions.lookup [.scalar c] with
    | none =>
      rw [bodiesOf, hlookup] at hne
      exact absurd rfl hne
    | some bodies =>
      rw [bodiesOf, hlookup]
      exact (RuleTable.lookup_eq_some_iff_mem d.names_nodup).mp hlookup

/-- **A document that describes a grammar is the document of the grammar.** -/
theorem same_of_grammar {r : Grammar} (h : d.grammar = .ok r) : (ofGrammar r).Same d := by
  obtain ⟨-, hparts⟩ := grammar_eq_ok h
  have hupper := upper_of_grammar h
  refine ⟨?_, ?_, ?_⟩
  · rw [ofGrammar, hparts]
    exact Body.text_ofText d.terminals
  · rw [declared_ofGrammar, hparts]
    show Glyph.ofString (Body.text (Body.ofText d.nonterminals)) = d.declared
    rw [Body.text_ofText, declared_eq hupper]
  · refine (List.perm_ext_iff_of_nodup (.of_map _ (ofGrammar r).names_nodup)
      (.of_map _ d.names_nodup)).mpr fun e => ?_
    rw [mem_productions_iff h, productions_described h, List.mem_map]
    exact exists_congr fun c => and_congr_right fun _ => eq_comm

/-! ## Stray bytes in names -/

/-- Where every name is found and some are stray bytes, it is an alphabet that is refused. -/
theorem grammar_of_fragment (hall : ∀ e ∈ d.productions, d.Names e.1 ∨ d.Fragment e.1)
    (hsome : ∃ e ∈ d.productions, d.Fragment e.1) :
    ∃ kind, (kind = .invalidTerminals ∨ kind = .invalidNonterminals) ∧
      d.grammar = .error (.violation ⟨kind, none, none⟩) := by
  have hdeclared : ∀ e ∈ d.productions, d.declares e.1 = true := fun e he =>
    declares_iff.mpr (hall e he)
  obtain ⟨e, he, hfragment⟩ := hsome
  rw [grammar_of_declared hdeclared]
  obtain ⟨kind, hkind, hfault⟩ := Parts.fault?_of_not_upper (p := d.parts)
    (not_upper_of_fragment he hfragment)
  exact ⟨kind, hkind, Grammar.build_of_fault?_eq_some hfault⟩

/-! ## The correspondence -/

theorem read_yaml {text : List Glyph} (h : Yaml.readDocument? text = some d) :
    Yaml.read text = d.grammar := by
  unfold Yaml.read
  rw [h]

theorem read_toml {text : List Glyph} (h : Toml.readDocument? text = some d) :
    Toml.read text = d.grammar := by
  unfold Toml.read
  rw [h]

/-- **Documents and grammars determine each other.** The document of a grammar describes the grammar; a
    document that describes a grammar is its document, up to the order of the entries, which never
    matters. Of the names that are neither declared nonterminals nor stray bytes of declared characters,
    the least in byte order is refused, whatever else is wrong; where stray bytes are the only trouble
    among the names, an alphabet is refused instead. So a grammar is read back from YAML and from TOML,
    once the text is decoded as the document that was written. -/
theorem documents_correspond_to_grammars (g : Grammar) (d : Document) :
    (ofGrammar g).grammar = .ok (g.withRegular false) ∧
    (∀ r, d.grammar = .ok r → (ofGrammar r).Same d) ∧
    (∀ d' : Document, d'.Same d → d'.grammar = d.grammar) ∧
    ((∃ e ∈ d.productions, ¬ (d.Names e.1 ∨ d.Fragment e.1)) →
      ∃ e ∈ d.productions, ¬ (d.Names e.1 ∨ d.Fragment e.1) ∧
        (∀ e' ∈ d.productions, ¬ (d.Names e'.1 ∨ d.Fragment e'.1) →
          Glyph.allBytes e.1 ≤ Glyph.allBytes e'.1) ∧
        d.grammar = .error (undeclared e.1)) ∧
    ((∀ e ∈ d.productions, d.Names e.1 ∨ d.Fragment e.1) → (∃ e ∈ d.productions, d.Fragment e.1) →
      ∃ kind, (kind = .invalidTerminals ∨ kind = .invalidNonterminals) ∧
        d.grammar = .error (.violation ⟨kind, none, none⟩)) ∧
    (∀ d', Yaml.readDocument? (Glyph.ofString (Yaml.write (ofGrammar g))) = some d' →
      d'.Same (ofGrammar g) →
      Yaml.read (Glyph.ofString (Yaml.write (ofGrammar g))) = .ok (g.withRegular false)) ∧
    (∀ d', Toml.readDocument? (Glyph.ofString (Toml.write (ofGrammar g))) = some d' →
      d'.Same (ofGrammar g) →
      Toml.read (Glyph.ofString (Toml.write (ofGrammar g))) = .ok (g.withRegular false)) := by
  have hout : ∀ name, ¬ (d.Names name ∨ d.Fragment name) ↔ d.declares name = false := by
    intro name
    rw [← declares_iff, Bool.not_eq_true]
  have hback : ∀ d' : Document, d'.Same (ofGrammar g) → d'.grammar = .ok (g.withRegular false) := by
    intro d' hsame
    rw [grammar_congr hsame, grammar_ofGrammar]
  refine ⟨grammar_ofGrammar g, fun r => same_of_grammar, fun d' => grammar_congr, ?_,
    grammar_of_fragment, ?_, ?_⟩
  · simp only [hout]
    exact grammar_of_undeclared
  · intro d' hread hsame
    rw [read_yaml hread, hback d' hsame]
  · intro d' hread hsame
    rw [read_toml hread, hback d' hsame]

/-- A nonterminal whose name means something else in YAML: `S → a Y | ε` and `Y → a`. -/
def yesGrammar : Grammar where
  terminals := Body.ofText "a"
  nonterminals := Body.ofText "SY"
  productions := [[Body.ofText "aY", []], [Body.ofText "a"]]
  regular := false
  valid := by decide

/-- A document with four names, of which one is declared. -/
def straying : Document where
  terminals := "A"
  alphabet := "S"
  entries := .ofList [([.stray 0xC3], []), (Glyph.ofString "S", ["a"]), (Glyph.ofString "Q", ["a"]),
    (Glyph.ofString "BS", [])]

theorem documents_correspond_straying :
    straying.grammar = .error (undeclared (Glyph.ofString "BS")) ∧
      Yaml.read (Glyph.ofString (Yaml.write (ofGrammar yesGrammar))) = .ok yesGrammar ∧
      Toml.read (Glyph.ofString (Toml.write (ofGrammar yesGrammar))) = .ok yesGrammar := by
  obtain ⟨-, -, -, hleast, -, hyaml, htoml⟩ := documents_correspond_to_grammars yesGrammar straying
  have hmark : yesGrammar.withRegular false = yesGrammar := rfl
  have hsame : (ofGrammar yesGrammar).Same (ofGrammar yesGrammar) := ⟨rfl, rfl, .refl _⟩
  have hsorted : (ofGrammar yesGrammar).sortedEntries = (ofGrammar yesGrammar).productions :=
    List.mergeSort_of_pairwise (by decide)
  rw [hmark] at hyaml htoml
  refine ⟨?_, hyaml _ ?_ hsame, htoml _ ?_ hsame⟩
  · have hmem : (Glyph.ofString "BS", []) ∈ straying.productions := by decide
    have hlong : ¬ (straying.Names (Glyph.ofString "BS") ∨ straying.Fragment (Glyph.ofString "BS")) := by
      rintro (⟨g, -, hname⟩ | ⟨b, c, hname, -⟩) <;> cases congrArg List.length hname
    obtain ⟨e, he, hout, hmin, herror⟩ := hleast ⟨_, hmem, hlong⟩
    have hle := hmin _ hmem hlong
    have hlisted : straying.productions = [([.stray 0xC3], []), (Glyph.ofString "S", ["a"]),
      (Glyph.ofString "Q", ["a"]), (Glyph.ofString "BS", [])] := by decide
    simp only [hlisted, List.mem_cons, List.not_mem_nil, or_false] at he
    rcases he with rfl | rfl | rfl | rfl
    · exact absurd hle (by decide)
    · exact absurd (.inl ⟨.scalar 'S', by decide, rfl⟩) hout
    · exact absurd hle (by decide)
    · exact herror
  · unfold Yaml.write
    simp only [hsorted]
    decide +kernel
  · unfold Toml.write
    simp only [hsorted]
    decide +kernel

/-- A name that is the first byte of a declared character. -/
def leadByte : Document where
  terminals := "a"
  alphabet := "é"
  entries := .ofList [([.stray 0xC3], ["a"])]

/-- The name is no declared nonterminal, and yet it is not the name that is refused. -/
theorem leadByte_not_refused_by_name :
    ([.stray 0xC3], ["a"]) ∈ leadByte.productions ∧ ¬ leadByte.Names [.stray 0xC3] ∧
      leadByte.grammar = .error (.violation ⟨.invalidNonterminals, none, none⟩) := by
  have hdeclared : ∀ e ∈ leadByte.productions, leadByte.declares e.1 = true := by decide +kernel
  refine ⟨by decide, ?_, ?_⟩
  · rintro ⟨g, hg, hname⟩
    have hlisted : leadByte.declared = [.scalar 'é'] := by decide
    rw [hlisted] at hg
    obtain rfl := List.mem_singleton.mp hg
    cases List.singleton_inj.mp hname
  · rw [grammar_of_declared hdeclared]
    exact Grammar.build_of_fault?_eq_some (by decide +kernel)

end Document
end LetterGrammar
