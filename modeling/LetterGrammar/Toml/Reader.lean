import LetterGrammar.Document.Basic
import LetterGrammar.Toml.Token
import LetterGrammar.Toml.Value

/-!
# Documents from TOML

A TOML text is read as a table, and the table as a `Document`. Names the document does not know are
passed over. A name is also found when it is written in capitals.

## Contents

- **`value?`** and its parts: the value at the head of a token list.
- **`Reading.statements?`**: the table of a token list.
- **`document?`**: the document a table describes.
- **`read`**: the grammar of a TOML text.
-/

namespace LetterGrammar
namespace Toml

/-! ## Values -/

/-- A number as a value. Where a text belongs, an integer that takes all 64 bits reads as the replacement
    character, and no other number reads as a text. -/
def numberValue? (n : Numeral) : Option Value :=
  n.kind?.map fun k =>
    match k with
    | .ordinary => .other
    | .unsignedWord => .text (String.singleton replacementChar)

/-- An array as a value. One that holds only tables is a list of tables. -/
def arrayValue (members : List Value) : Value :=
  let isTable (v : Value) : Bool := match v with
    | .table _ _ => true
    | _ => false
  match members.getLast? with
  | some (.table t c) => if members.all isTable then .tables t c else .array members
  | _ => .array members

/-- What came last in a table in braces. -/
inductive Previous
  | nothing
  | field
  | comma
deriving DecidableEq, Repr

mutual

/-- The value at the head of the tokens. -/
def value? : Nat → List Token → Option (Value × List Token)
  | 0, _ => none
  | fuel + 1, tokens =>
    match tokens with
    | .text s :: rest => some (.text (String.ofList s), rest)
    | .word :: rest => some (.other, rest)
    | .number n :: rest => (numberValue? n).map (·, rest)
    | .time t :: rest => if isTime t then some (.other, rest) else none
    | .date d :: .time t :: .offset o :: rest =>
      if isDate d && isTime t && isOffset o then some (.other, rest) else none
    | .date d :: .time t :: rest => if isDate d && isTime t then some (.other, rest) else none
    | .date d :: rest => if isDate d then some (.other, rest) else none
    | .openBracket :: rest => (members? fuel rest).map fun r => (arrayValue r.1, r.2)
    | .openBrace :: rest => (fields? fuel .nothing [] rest).map fun r => (.table r.1 true, r.2)
    | _ => none

/-- The members of an array, up to its closing bracket. -/
def members? : Nat → List Token → Option (List Value × List Token)
  | 0, _ => none
  | fuel + 1, tokens =>
    match tokens with
    | .closeBracket :: rest => some ([], rest)
    | _ =>
      match value? fuel tokens with
      | some (v, .comma :: rest) => (members? fuel rest).map fun r => (v :: r.1, r.2)
      | some (v, .closeBracket :: rest) => some ([v], rest)
      | _ => none

/-- The fields of a table in braces, up to the closing one, added to those before. Commas stand between
    fields only. -/
def fields? : Nat → Previous → Table → List Token → Option (Table × List Token)
  | 0, _, _, _ => none
  | fuel + 1, previous, known, tokens =>
    match tokens with
    | .closeBrace :: rest => if previous = .comma then none else some (known, rest)
    | .comma :: rest => if previous = .comma then none else fields? fuel .comma known rest
    | .key key :: .equals :: rest =>
      if previous = .field then none
      else
        match keyPath? key, value? fuel rest with
        | some path, some (v, rest) => fields? fuel .field (Table.put path v known) rest
        | _, _ => none
    | _ => none

end

/-! ## Statements -/

/-- The state of the reading of a text: its table, the path of the open table, and the keys of the headers
    that must not come again, as they are written. -/
structure Reading where
  root : Table
  path : List String
  headers : List (List Char)

namespace Reading

/-- Opens a table. -/
def openTable? (r : Reading) (key : List Char) : Option Reading :=
  if r.headers.contains key then none
  else
    (keyPath? key).bind fun path =>
      (r.root.openTable? path).map fun t => ⟨t, path, key :: r.headers⟩

/-- Opens a new member of a list of tables. The headers below it may come again. -/
def openElement? (r : Reading) (key : List Char) : Option Reading :=
  (keyPath? key).bind fun path =>
    (r.root.openElement? path).map fun t =>
      ⟨t, path, key :: r.headers.filter fun h => !(key ++ ['.']).isPrefixOf h⟩

/-- Gives a value to a name in the open table. -/
def assign? (r : Reading) (key : List Char) (v : Value) : Option Reading :=
  (keyPath? key).bind fun path =>
    path.getLast?.bind fun name =>
      (r.root.assign? (r.path ++ path.dropLast) name v).map fun t => { r with root := t }

/-- The table of the statements, one after another. -/
def statements? : Nat → Reading → List Token → Option Table
  | 0, _, _ => none
  | fuel + 1, r, tokens =>
    match tokens with
    | [] => some r.root
    | .openBracket :: .tableKey key :: .closeBracket :: rest =>
      (r.openTable? key).bind fun r => r.statements? fuel rest
    | .openTwoBrackets :: .elementKey key :: .closeTwoBrackets :: rest =>
      (r.openElement? key).bind fun r => r.statements? fuel rest
    | .key key :: .equals :: rest =>
      (value? (2 * rest.length + 2) rest).bind fun x =>
        (r.assign? key x.1).bind fun r => r.statements? fuel x.2
    | _ => none

end Reading

/-- The table of a token list. -/
def table? (tokens : List Token) : Option Table :=
  Reading.statements? (tokens.length + 1) ⟨[], [], []⟩ tokens

/-! ## Documents -/

/-- The text a value is. -/
def Value.text? : Value → Option String
  | .text s => some s
  | _ => none

/-- The texts an array holds. -/
def Value.texts? : Value → Option (List String)
  | .array members => members.mapM Value.text?
  | _ => none

/-- The lists of texts a table holds. -/
def Value.productions? : Value → Option (List (List Glyph × List String))
  | .table entries _ =>
    entries.mapM fun e => (Value.texts? e.2).map fun bodies => (Glyph.ofString e.1, bodies)
  | _ => none

/-- What the value of a name means, or of the name in capitals; a missing name has a default. -/
def fieldOr {α : Type} (t : Table) (name : String) (default : α) (read : Value → Option α) :
    Option α :=
  match (t.lookup name).orElse fun _ => t.lookup (name.map Char.toUpper) with
  | none => some default
  | some v => read v

/-- The document a table describes. -/
def document? (t : Table) : Option Document := do
  let terminals ← fieldOr t "terminals" "" Value.text?
  let nonterminals ← fieldOr t "nonterminals" "" Value.text?
  let productions ← fieldOr t "productions" [] Value.productions?
  pure ⟨terminals, nonterminals, .ofList productions⟩

/-- The text after a byte order mark of any encoding. -/
def skipMark : List Glyph → List Glyph
  | .scalar '\x00' :: .scalar '\x00' :: .stray 0xFE :: .stray 0xFF :: rest => rest
  | .stray 0xFF :: .stray 0xFE :: .scalar '\x00' :: .scalar '\x00' :: rest => rest
  | .scalar '\uFEFF' :: rest => rest
  | .stray 0xFE :: .stray 0xFF :: rest => rest
  | .stray 0xFF :: .stray 0xFE :: rest => rest
  | text => text

/-- The document in a TOML text. -/
def readDocument? (text : List Glyph) : Option Document := do
  let tokens ← tokens? ((skipMark text).map Glyph.char)
  let t ← table? tokens
  document? t

/-- The grammar of a TOML text. -/
def read (text : List Glyph) : Except Fault Grammar :=
  match readDocument? text with
  | none => .error (.undecodable "decode TOML grammar")
  | some d => d.grammar

end Toml
end LetterGrammar
