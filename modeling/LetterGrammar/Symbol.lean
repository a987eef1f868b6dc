import LetterGrammar.Text.ByteOrder
import LetterGrammar.Text.Glyph

/-!
# Symbols and bodies

A symbol is a single letter, known by its code. Lower-case letters are terminals and upper-case letters
are nonterminals; other codes occur only in input that validation turns away. A body is the right side
of a rule, and a word is a body of terminals.

## Contents

- **`Symbol`**: its classes and its printed character.
- **`Body`**: the text of a body and the body of a text.
- **`distinctOn`**, **`Body.distinct`**: duplicates removed, first occurrences kept.
- **`Body.canonical`**: distinct bodies in byte order.
- **`Body.withSuffix`**: every body with and without a symbol appended.
-/

namespace LetterGrammar

/-- A symbol of a grammar: the code of its letter. Codes that are no characters are symbols too, so
    that faulty input can be described. -/
structure Symbol where
  code : Int
deriving DecidableEq, Repr, Inhabited

namespace Symbol

/-- The symbol of a character. -/
def ofChar (c : Char) : Symbol := ⟨c.toNat⟩

/-- The symbol is one of `a` to `z`. -/
def isLower (s : Symbol) : Bool :=
  97 ≤ s.code && s.code ≤ 122

/-- The symbol is one of `A` to `Z`. -/
def isUpper (s : Symbol) : Bool :=
  65 ≤ s.code && s.code ≤ 90

/-- The character a symbol prints as: the replacement character if its code is that of no character. -/
def toChar (s : Symbol) : Char :=
  match s.code with
  | .ofNat n => if n.isValidChar then Char.ofNat n else replacementChar
  | .negSucc _ => replacementChar

/-- The printed symbol. -/
def text (s : Symbol) : String :=
  String.singleton s.toChar

end Symbol

/-! ## Bodies -/

/-- The right side of a rule. The empty body derives the empty word. -/
abbrev Body := List Symbol

/-- A word: a body of terminals. -/
abbrev Word := Body

namespace Body

/-- The body spelled by a text, one symbol a character. -/
def ofText (s : String) : Body :=
  s.toList.map Symbol.ofChar

/-- The characters of a printed body. -/
def chars (b : Body) : List Char :=
  b.map Symbol.toChar

/-- The printed body. -/
def text (b : Body) : String :=
  String.ofList b.chars

end Body

/-! ## Duplicates -/

/-- The members whose key is new: neither in `seen` nor the key of an earlier member. -/
def distinctOn {α κ : Type} [BEq κ] (key : α → κ) (seen : List κ) : List α → List α
  | [] => []
  | a :: rest =>
    let k := key a
    if seen.contains k then distinctOn key seen rest
    else a :: distinctOn key (k :: seen) rest

namespace Body

/-- The bodies without those that print as an earlier one. -/
def distinct (bodies : List Body) : List Body :=
  distinctOn chars [] bodies

/-- The bodies in the byte order of their printed texts. -/
def sorted (bodies : List Body) : List Body :=
  bodies.mergeSort fun a b => bytesLe a.chars b.chars

/-- The canonical list of a set of bodies: each once, in byte order. -/
def canonical (bodies : List Body) : List Body :=
  sorted (distinct bodies)

/-- All bodies, then all bodies with the symbol appended. -/
def withSuffix (bodies : List Body) (suffix : Symbol) : List Body :=
  distinct (bodies ++ bodies.map (· ++ [suffix]))

end Body

end LetterGrammar
