import LetterGrammar.Toml.Key
import LetterGrammar.Toml.Moment
import LetterGrammar.Toml.Number

/-!
# Tokens of a TOML text

A text is cut into tokens in two modes. Before an equals sign it consists of keys and headers, after one of
values, up to the end of the line; brackets of arrays and braces of tables keep track of where a line end
or a comma leads.

## Contents

- **`Token`**: the tokens.
- **`statementToken?`**, **`valueToken?`**: the next token in either mode.
- **`tokens?`**: the tokens of a text.
-/

namespace LetterGrammar
namespace Toml

/-- A part of a text. -/
inductive Token
  | key (text : List Char)
  /-- The key in a header of a table. -/
  | tableKey (text : List Char)
  /-- The key in a header of a member of a list of tables. -/
  | elementKey (text : List Char)
  | equals
  | comma
  | openBracket
  | closeBracket
  | openTwoBrackets
  | closeTwoBrackets
  | openBrace
  | closeBrace
  | text (value : List Char)
  /-- A truth value, an infinity or what is no number. -/
  | word
  | number (n : Numeral)
  | date (text : List Char)
  | time (text : List Char)
  | offset (text : List Char)
deriving DecidableEq, Repr

/-- What the text consists of at a place. -/
inductive Mode
  | statements
  | values
deriving DecidableEq, Repr

/-- The state of cutting: the mode, the open brackets and braces with the innermost one first, and the
    rest of the text. -/
structure Cut where
  mode : Mode
  enclosing : List Char
  rest : List Char

namespace Cut

/-- The innermost open sign is a bracket. -/
def inArray (c : Cut) : Bool := c.enclosing.head? = some '['

/-- The innermost open sign is a brace. -/
def inTable (c : Cut) : Bool := c.enclosing.head? = some '\x7b'

end Cut

/-- The text after a comment, its line break not included. -/
def skipComment : List Char → List Char
  | [] => []
  | '\r' :: '\n' :: rest => '\r' :: '\n' :: rest
  | '\n' :: rest => '\n' :: rest
  | _ :: rest => skipComment rest

/-! ## Headers and keys -/

/-- The key of a header up to its closing bracket; a header has at most one pair of brackets. -/
def headerKey? (text : List Char) : Option (List Char × List Char) :=
  let key := text.takeWhile fun c => c ≠ ']' && c ≠ '['
  match text.drop key.length with
  | ']' :: rest => some (key, rest)
  | _ => none

/-- The token of a key, unless nothing is written. -/
def keyToken (make : List Char → Token) (key : List Char) : List Token :=
  if key.isEmpty then [] else [make key]

/-- The tokens of a header, after its opening bracket. -/
def header? (text : List Char) : Option (List Token × List Char) :=
  match text with
  | '[' :: rest =>
    match headerKey? rest with
    | some (key, ']' :: rest) =>
      some (.openTwoBrackets :: keyToken .elementKey key ++ [.closeTwoBrackets], rest)
    | _ => none
  | _ =>
    (headerKey? text).map fun r =>
      (.openBracket :: keyToken .tableKey r.1 ++ [.closeBracket], r.2)

/-- The tokens at a place where a key or a header may stand, which starts with the given character. -/
def statementToken? (c : Cut) (head : Char) (tail : List Char) : Option (List Token × Cut) :=
  if isSpace head || isBreak head then some ([], { c with rest := tail })
  else if head = '#' then some ([], { c with rest := skipComment tail })
  else if head = '\x7d' then
    if c.inTable then some ([.closeBrace], ⟨.values, c.enclosing.drop 1, tail⟩) else none
  else if head = '[' then (header? tail).map fun r => (r.1, { c with rest := r.2 })
  else if head = '=' then some ([.equals], ⟨.values, c.enclosing, tail⟩)
  else (keyFrom? (tail.length + 2) (head :: tail)).map fun r => ([.key r.1], { c with rest := r.2 })

/-! ## Values -/

/-- The tokens of a date. A time may follow after a letter or a blank; after the date nothing else but a
    blank can stand. -/
def dateTokens? (text : List Char) : Option (List Token × List Char) :=
  match dateFrom? text with
  | none => none
  | some (date, []) => some ([.date date], [])
  | some (date, sep :: rest) =>
    if sep = 'T' || (sep = ' ' && fitsPattern ['0', '0'] rest) then
      match timeFrom? rest with
      | none => none
      | some (time, rest) =>
        (offsetFrom? rest).map fun r =>
          (.date date :: .time time :: (r.1.map Token.offset).toList, r.2)
    else if sep = ' ' then some ([.date date], sep :: rest)
    else none

/-- The tokens of a time that stands alone. -/
def timeTokens? (text : List Char) : Option (List Token × List Char) :=
  match timeFrom? text with
  | none => none
  | some (time, rest) =>
    (offsetFrom? rest).map fun r => (.time time :: (r.1.map Token.offset).toList, r.2)

/-- The tokens of what starts with a digit: a time, a date or a number. -/
def digitTokens? (text : List Char) : Option (List Token × List Char) :=
  if fitsPattern "00:".toList text then timeTokens? text
  else if fitsPattern "0000-".toList text then dateTokens? text
  else (numeral? text).map fun r => ([.number r.1], r.2)

/-- The words that are values. -/
def valueWords : List (List Char) :=
  ["true".toList, "false".toList, "inf".toList, "nan".toList]

/-- The words that are values behind a sign. -/
def signedWords : List (List Char) :=
  ["inf".toList, "nan".toList]

/-- The tokens of a value that is no text and no collection. -/
def simpleTokens? (head : Char) (tail : List Char) : Option (List Token × List Char) :=
  match valueWords.find? fun w => w.isPrefixOf (head :: tail) with
  | some w => some ([.word], (head :: tail).drop w.length)
  | none =>
    if head = '+' || head = '-' then
      match signedWords.find? fun w => w.isPrefixOf tail with
      | some w => some ([.word], tail.drop w.length)
      | none => (numeral? (head :: tail)).map fun r => ([.number r.1], r.2)
    else if isDecimal head then digitTokens? (head :: tail)
    else none

/-- The tokens at a place where a value may stand, which starts with the given character. -/
def valueToken? (c : Cut) (head : Char) (tail : List Char) : Option (List Token × Cut) :=
  let go (t : Token) : Option (List Token × Cut) := some ([t], { c with rest := tail })
  if isSpace head then some ([], { c with rest := tail })
  else if isBreak head then
    some ([], ⟨if c.inArray then .values else .statements, c.enclosing, tail⟩)
  else if head = '#' then some ([], { c with rest := skipComment tail })
  else if head = '=' then go .equals
  else if head = '[' then some ([.openBracket], ⟨.values, '[' :: c.enclosing, tail⟩)
  else if head = ']' then
    some ([.closeBracket],
      ⟨.values, if c.inArray then c.enclosing.drop 1 else c.enclosing, tail⟩)
  else if head = '\x7b' then some ([.openBrace], ⟨.statements, '\x7b' :: c.enclosing, tail⟩)
  else if head = '\x7d' then
    if c.inTable then some ([.closeBrace], ⟨.values, c.enclosing.drop 1, tail⟩) else none
  else if head = ',' then
    some ([.comma], ⟨if c.inTable then .statements else .values, c.enclosing, tail⟩)
  else if head = '"' || head = '\'' then
    (text? (head :: tail)).map fun r => ([.text r.1], { c with rest := r.2 })
  else (simpleTokens? head tail).map fun r => (r.1, { c with rest := r.2 })

/-! ## The whole text -/

/-- The tokens from a place on. Every step takes a character. -/
def tokensFrom? : Nat → Cut → Option (List Token)
  | 0, _ => none
  | fuel + 1, c =>
    match c.rest with
    | [] => some []
    | head :: tail =>
      let step := match c.mode with
        | .statements => statementToken? c head tail
        | .values => valueToken? c head tail
      match step with
      | none => none
      | some (ts, c) => (tokensFrom? fuel c).map (ts ++ ·)

/-- The tokens of a text. -/
def tokens? (text : List Char) : Option (List Token) :=
  tokensFrom? (text.length + 1) ⟨.statements, [], text⟩

end Toml
end LetterGrammar
