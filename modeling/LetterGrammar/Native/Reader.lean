import LetterGrammar.Grammar.Basic
import LetterGrammar.Native.File

/-!
# Grammars from the native notation

The nonterminals of a file are its rule heads in the order of their first appearance; rules with the
same head are merged. Without a declaration the terminals are the lower-case letters of the
alternatives, in the order of the text.

## Contents

- **`File.heads`**, **`File.bodiesOf`**, **`File.terminals`**: the parts a file describes.
- **`File.grammar`**: the grammar with these parts.
- **`read`**: the grammar of a text.
-/

namespace LetterGrammar
namespace Native
namespace File

/-- The rule heads, each once, in the order of their first appearance. -/
def heads (f : File) : List String :=
  distinctOn id [] (f.rules.map Rule.head)

/-- All alternatives of all rules with a head, in the order of the text. -/
def bodiesOf (f : File) (head : String) : List String :=
  (f.rules.filter fun r => r.head = head).flatMap fun r => r.bodies.map RuleBody.text

/-- The lower-case letters of all alternatives, each once, in the order of the text. -/
def usedLetters (f : File) : List Char :=
  distinctOn id []
    ((f.rules.flatMap fun r => r.bodies.flatMap fun b => b.text.toList).filter fun c =>
      'a' ≤ c && c ≤ 'z')

/-- The declared terminals, or the letters in use. -/
def terminals (f : File) : String :=
  match f.declared with
  | some t => t
  | none => String.ofList f.usedLetters

/-- The fault of a rule head that is not a single character. -/
def headFault (r : Rule) : Fault :=
  .located r.place ("rule head " ++ quote r.head ++ " is not a single nonterminal")
    (some (.violation ⟨.invalidNonterminals, none, none⟩))

/-- The grammar a file describes. -/
def grammar (f : File) : Except Fault Grammar :=
  match f.rules.find? fun r => r.head.length ≠ 1 with
  | some r => .error (headFault r)
  | none =>
    (Grammar.ofTexts f.terminals (String.join f.heads) (f.heads.map f.bodiesOf)).mapError fun e =>
      .located f.place "invalid grammar" (some e)

end File

/-- The grammar of a text in the native notation. -/
def read (filename : String) (text : List Glyph) : Except Fault Grammar :=
  match File.read filename text with
  | .error f => .error f
  | .ok file => file.grammar

end Native
end LetterGrammar
