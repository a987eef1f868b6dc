import LetterGrammar.Fault

/-!
# Tokens of the native notation

The text is cut into tokens from left to right; each token is as long as its class allows. White space
and comments are tokens too, and are dropped before the text is read further.

## Contents

- **`Token`**: a class, a text and a place.
- **`lexeme?`**: the token at the head of a text.
- **`tokenize`**: all tokens of a text, or the place where no token fits.
- **`Token.isSignificant`**: the tokens that are read further.
-/

namespace LetterGrammar
namespace Native

/-- The classes of tokens. -/
inductive TokenClass
  | comment
  | blank
  | arrow
  | epsilon
  | ident
  | punct
deriving DecidableEq, Repr

/-- A piece of a text. -/
structure Token where
  kind : TokenClass
  text : String
  place : Position
deriving DecidableEq, Repr

/-- White space between tokens. -/
def isBlank (c : Char) : Bool :=
  c = ' ' || c = '\t' || c = '\n' || c = '\x0c' || c = '\r'

/-- The first character of an identifier. -/
def isIdentStart (c : Char) : Bool :=
  ('a' ≤ c && c ≤ 'z') || ('A' ≤ c && c ≤ 'Z') || c = '_'

/-- A further character of an identifier. -/
def isIdentPart (c : Char) : Bool :=
  isIdentStart c || ('0' ≤ c && c ≤ '9')

/-- The class of the token that starts with `c`, and how many characters it takes after `c`. -/
def lexeme? (c : Char) (rest : List Char) : Option (TokenClass × Nat) :=
  if c = '#' then some (.comment, (rest.takeWhile (· ≠ '\n')).length)
  else if isBlank c then some (.blank, (rest.takeWhile isBlank).length)
  else if c = '→' then some (.arrow, 0)
  else if c = '-' && rest.head? = some '>' then some (.arrow, 1)
  else if c = 'ε' || c = '&' then some (.epsilon, 0)
  else if isIdentStart c then some (.ident, (rest.takeWhile isIdentPart).length)
  else if c = '|' || c = ':' || c = ';' then some (.punct, 0)
  else none

/-- The place after a glyph. -/
def advance (p : Position) (g : Glyph) : Position :=
  if g.char = '\n' then ⟨p.filename, p.offset + g.size, p.line + 1, 1⟩
  else ⟨p.filename, p.offset + g.size, p.line, p.column + 1⟩

/-- The rest of a text as shown in a message: at most sixteen characters. -/
def excerpt (gs : List Glyph) : String :=
  if gs.length ≤ 16 then Glyph.text gs else Glyph.text (gs.take 16) ++ "..."

/-- The tokens of a text that starts at a place, and the place where it ends. -/
def tokenize (place : Position) : List Glyph → Except Fault (List Token × Position)
  | [] => .ok ([], place)
  | g :: rest =>
    match lexeme? g.char (rest.map Glyph.char) with
    | none => .error (.located place ("invalid input text " ++ quote (excerpt (g :: rest))) none)
    | some (kind, n) =>
      let taken := g :: rest.take n
      match tokenize (taken.foldl advance place) (rest.drop n) with
      | .error f => .error f
      | .ok (tokens, last) => .ok (⟨kind, Glyph.text taken, place⟩ :: tokens, last)
termination_by gs => gs.length
decreasing_by
  simp only [List.length_drop, List.length_cons]
  omega

/-- The token is read further. -/
def Token.isSignificant (t : Token) : Bool :=
  t.kind ≠ .comment && t.kind ≠ .blank

end Native
end LetterGrammar
