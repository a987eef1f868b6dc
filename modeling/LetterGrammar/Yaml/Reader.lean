import LetterGrammar.Document.Basic
import LetterGrammar.Yaml.Meaning
import LetterGrammar.Yaml.Node

/-!
# Documents from YAML

The first document of a YAML text is read as a `Document`. Names it does not know are passed over, and of
an entry given twice the last one counts. A small text can stand for a huge tree by its aliases, so the
nodes that are visited are counted, and a tree that consists of little else than aliases is refused.

## Contents

- **`Tally`**, **`Decoding`**: the count of visited nodes, and decoding that keeps it.
- **`Node.text`**, **`Node.texts`**: what a node means where a text or a list of texts belongs.
- **`fill`**: the effect of the entries of a mapping and of those merged into it.
- **`Node.document`**: the document a node describes.
- **`read`**: the grammar of a YAML text.
-/

namespace LetterGrammar
namespace Yaml

/-! ## Counting -/

/-- The number of visited nodes, of those visited through an alias, and of the aliases around the
    current one. -/
structure Tally where
  visited : Nat
  aliased : Nat
  depth : Nat
deriving DecidableEq, Repr

namespace Tally

/-- The share of nodes visited through aliases is too high. It may be 99 parts in a hundred up to
    400000 nodes, and falls to ten parts at 4000000. -/
def isExcessive (t : Tally) : Bool :=
  100 < t.aliased && 1000 < t.visited
    && (if t.visited ≤ 400000 then 99 * t.visited < 100 * t.aliased
      else if 4000000 ≤ t.visited then t.visited < 10 * t.aliased
      else t.visited * (99 * 3600000 - 89 * (t.visited - 400000)) < t.aliased * (100 * 3600000))

/-- One more node is visited. -/
def visit (t : Tally) : Tally :=
  ⟨t.visited + 1, if 0 < t.depth then t.aliased + 1 else t.aliased, t.depth⟩

end Tally

/-- Decoding keeps the count and may fail. -/
abbrev Decoding := StateT Tally Option

/-- Counts a node. -/
def visit : Decoding Unit := do
  let t := (← get).visit
  if t.isExcessive then failure else set t

/-- Visits a node and, if it is an alias, the node it stands for. -/
def visiting {α : Type} (n : Node) (decode : Node → Decoding α) : Decoding α := do
  visit
  match n with
  | .reference target =>
    modify fun t => { t with depth := t.depth + 1 }
    visit
    let a ← decode target
    modify fun t => { t with depth := t.depth - 1 }
    pure a
  | .cycle => failure
  | _ => decode n

/-! ## Texts -/

namespace Node

/-- What a scalar means. -/
def meaning? : Node → Option Meaning
  | scalar text tag plain => Yaml.meaning? text tag plain
  | _ => none

/-- The text of a scalar. Nothing reads as the empty text. -/
def text (n : Node) : Decoding (List Glyph) :=
  visiting n fun m =>
    match m.meaning? with
    | some (.text t) => pure t
    | some .nothing => pure []
    | none => failure

/-- The texts of a sequence. Nothing reads as the empty list. -/
def texts (n : Node) : Decoding (List String) :=
  visiting n fun m =>
    match m with
    | sequence members => members.mapM fun x => do return Glyph.text (← x.text)
    | _ => if m.meaning? = some .nothing then pure [] else failure

/-- The key that merges other mappings into its own. -/
def isMerge : Node → Bool
  | scalar text tag plain => text = "<<" && (plain || tag = coreTag "merge")
  | _ => false

/-- A mapping, or an alias for one. -/
def isMapping : Node → Bool
  | mapping _ => true
  | reference (mapping _) => true
  | _ => false

/-- The mappings that a node merges, in the order in which they take effect. -/
def merged? : Node → Option (List Node)
  | sequence members => if members.all isMapping then some members.reverse else none
  | n => if n.isMapping then some [n] else none

end Node

/-! ## Mappings -/

/-- What becomes of `s` by the entries of a mapping, one after another. Nothing makes it `blank`. Mappings
    may be merged into each other, but the fuel bounds how deep. -/
def fill {σ : Type} (blank : σ) (put : σ → Node → Node → Decoding σ) : Nat → σ → Node → Decoding σ
  | 0, _, _ => failure
  | fuel + 1, s, n =>
    visiting n fun m =>
      match m with
      | .mapping entries =>
        entries.foldlM (fun s e =>
          if e.1.isMerge then
            match e.2.merged? with
            | some ns => ns.foldlM (fun s n => fill blank put fuel s n) s
            | none => failure
          else put s e.1 e.2) s
      | _ => if m.meaning? = some .nothing then pure blank else failure

/-- Entries with one more, in place of an earlier one of its name. -/
def putProduction (known : Entries) (name bodies : Node) : Decoding Entries := do
  let name ← name.text
  let bodies ← bodies.texts
  return known.put (.ofGlyphs name) bodies

/-- A document with one more entry. -/
def putEntry (fuel : Nat) (d : Document) (name value : Node) : Decoding Document := do
  match Glyph.text (← name.text) with
  | "terminals" => return { d with terminals := Glyph.text (← value.text) }
  | "nonterminals" => return { d with alphabet := .ofGlyphs (← value.text) }
  | "productions" => return { d with entries := ← fill .empty putProduction fuel d.entries value }
  | _ => return d

/-- The document a node describes. -/
def Node.document (fuel : Nat) (n : Node) : Decoding Document :=
  fill .empty (putEntry fuel) fuel .empty n

/-! ## Reading -/

/-- The document in a YAML text. Mappings are merged no deeper than there are characters. -/
def readDocument? (text : List Glyph) : Option Document := do
  let n ← Node.read? text
  let (d, _) ← (n.document (text.length + 1)).run ⟨1, 0, 0⟩
  return d

/-- The grammar of a YAML text. -/
def read (text : List Glyph) : Except Fault Grammar :=
  match readDocument? text with
  | none => .error (.undecodable "decode YAML grammar")
  | some d => d.grammar

end Yaml
end LetterGrammar
