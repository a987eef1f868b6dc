import LetterGrammar.Grammar.Basic

/-!
# Documents

A document is a grammar as stored data: two alphabets, and bodies under the names of their
nonterminals. The entries have no order of their own. A name may be any text, and even bytes that are
none; so may the alphabet of nonterminals, in which names are looked for byte by byte.

## Contents

- **`StoredText`**: a text as it is stored.
- **`Entries`**, **`Entries.put`**: bodies under names, each name once.
- **`Document`**: alphabets and entries.
- **`Document.grammar`**: the grammar a document describes.
- **`Document.ofGrammar`**: the document of a grammar.
-/

namespace LetterGrammar

/-- A text as it is stored: bytes, which need not be UTF-8. -/
structure StoredText where
  bytes : List UInt8
deriving DecidableEq, Repr

namespace StoredText

/-- The text as it is read. -/
def glyphs (t : StoredText) : List Glyph :=
  Glyph.decode t.bytes

/-- Glyphs as they are stored. -/
def ofGlyphs (gs : List Glyph) : StoredText :=
  ⟨Glyph.allBytes gs⟩

instance : Coe String StoredText := ⟨fun s => ofGlyphs (Glyph.ofString s)⟩

end StoredText

/-! ## Entries -/

/-- Bodies under names. A name occurs once, and the order of the names has no meaning. -/
structure Entries where
  list : List (StoredText × List String)
  nodup : (list.map Prod.fst).Nodup
deriving DecidableEq, Repr

namespace Entries

def empty : Entries := ⟨[], .nil⟩

/-- A list with the bodies of a name replaced, or added at the end. -/
def putIn (name : StoredText) (bodies : List String) :
    List (StoredText × List String) → List (StoredText × List String)
  | [] => [(name, bodies)]
  | e :: rest => if e.1 = name then (name, bodies) :: rest else e :: putIn name bodies rest

/-- Names are replaced by themselves, or added. -/
theorem mem_names_putIn {name s : StoredText} {bodies : List String} {l : List (StoredText × List String)}
    (h : s ∈ (putIn name bodies l).map Prod.fst) : s = name ∨ s ∈ l.map Prod.fst := by
  induction l with
  | nil => exact Or.inl (List.mem_singleton.mp h)
  | cons e rest ih =>
      unfold putIn at h
      split at h
      · exact (List.mem_cons.mp h).imp_right (List.mem_cons_of_mem _)
      · rcases List.mem_cons.mp h with rfl | h
        · exact Or.inr List.mem_cons_self
        · exact (ih h).imp_right (List.mem_cons_of_mem _)

theorem nodup_putIn (name : StoredText) (bodies : List String) {l : List (StoredText × List String)}
    (h : (l.map Prod.fst).Nodup) : ((putIn name bodies l).map Prod.fst).Nodup := by
  induction l with
  | nil => exact List.nodup_cons.mpr ⟨List.not_mem_nil, .nil⟩
  | cons e rest ih =>
      obtain ⟨hnew, hrest⟩ := List.nodup_cons.mp h
      unfold putIn
      split
      · next heq => exact List.nodup_cons.mpr ⟨heq ▸ hnew, hrest⟩
      · next hne =>
        refine List.nodup_cons.mpr ⟨fun hm => ?_, ih hrest⟩
        exact (mem_names_putIn hm).elim hne hnew

/-- Entries with the bodies of a name replaced, or added at the end. -/
def put (es : Entries) (name : StoredText) (bodies : List String) : Entries :=
  ⟨putIn name bodies es.list, nodup_putIn name bodies es.nodup⟩

/-- Bodies put under their names, one after another. -/
def ofList (l : List (List Glyph × List String)) : Entries :=
  l.foldl (fun es e => es.put (.ofGlyphs e.1) e.2) empty

instance : Coe (List (List Glyph × List String)) Entries := ⟨ofList⟩

end Entries

/-! ## Documents -/

/-- A grammar as stored data. -/
structure Document where
  terminals : String
  /-- The nonterminals as they are stored. -/
  alphabet : StoredText
  entries : Entries
deriving DecidableEq, Repr

namespace Document

/-- The document that says nothing. -/
def empty : Document := ⟨"", "", .empty⟩

/-- The nonterminals, as they are stored, one by one. -/
def declared (d : Document) : List Glyph :=
  d.alphabet.glyphs

/-- The nonterminals as they are read. -/
def nonterminals (d : Document) : String :=
  Glyph.text d.declared

/-- The entries by the glyphs of their names. -/
def productions (d : Document) : List (List Glyph × List String) :=
  d.entries.list.map fun e => (e.1.glyphs, e.2)

/-- The name is a single glyph, and its bytes are found in those of the nonterminals. -/
def declares (d : Document) (name : List Glyph) : Bool :=
  name.length == 1 && occursIn (Glyph.allBytes name) (Glyph.allBytes d.declared)

/-- The bodies stored under the name of a nonterminal. -/
def bodiesOf (d : Document) (c : Char) : List String :=
  (d.productions.lookup [.scalar c]).getD []

/-- The entries in the byte order of their names. -/
def sortedEntries (d : Document) : List (List Glyph × List String) :=
  d.productions.mergeSort fun a b => decide (Glyph.allBytes a.1 ≤ Glyph.allBytes b.1)

/-- The fault of an entry under a name that is not declared. -/
def undeclared (name : List Glyph) : Fault :=
  .context ("productions for undeclared nonterminal " ++ quoteGlyphs name)
    (.cause .productionCountMismatch)

/-- The grammar a document describes. An entry under a name that is not found among the nonterminals is
    the first thing to be refused, and of several such entries the least in byte order. -/
def grammar (d : Document) : Except Fault Grammar :=
  match d.sortedEntries.find? fun e => !d.declares e.1 with
  | some e => .error (undeclared e.1)
  | none => Grammar.ofTexts d.terminals d.nonterminals (d.nonterminals.toList.map d.bodiesOf)

/-- The document of a grammar. -/
def ofGrammar (g : Grammar) : Document where
  terminals := Body.text g.terminals
  alphabet := Body.text g.nonterminals
  entries := .ofList (g.entries.map fun e => (Glyph.ofString e.1.text, e.2.map Body.text))

end Document

end LetterGrammar
