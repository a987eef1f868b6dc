import LetterGrammar.Ebnf.Number
import LetterGrammar.Position
import LetterGrammar.Text.Letter

/-!
# Tokens of the EBNF notation

## Contents

- **`Token`**: a class, its text and its place.
- **`lexeme`**: the class and the length of the token at the head of a text.
- **`readComplaint?`**: the complaint about a character that should not be in a text at all.
- **`tokenize`**: the tokens of a text, and the complaints about what is malformed in it.
-/

namespace LetterGrammar
namespace Ebnf

/-- The classes of tokens. -/
inductive TokenClass
  | eof
  | ident
  | int
  | float
  | char
  | string
  | rawString
  /-- Any other single character. -/
  | sign (c : Char)
deriving DecidableEq, Repr

/-- The name of a class in complaints. -/
def TokenClass.name : TokenClass → String
  | eof => "EOF"
  | ident => "Ident"
  | int => "Int"
  | float => "Float"
  | char => "Char"
  | string => "String"
  | rawString => "RawString"
  | sign c => quote (String.singleton c)

/-- A piece of a text. -/
structure Token where
  kind : TokenClass
  text : List Glyph
  place : Position
deriving DecidableEq, Repr

/-- The place as shown in messages; a text without a name is the input. -/
def describe (p : Position) : String :=
  (if p.filename.isEmpty then "<input>" else p.filename) ++ ":" ++ p.lineColumn

/-- White space between tokens. -/
def isBlank (c : Char) : Bool :=
  c = ' ' || c = '\t' || c = '\n' || c = '\r'

/-- The first character of a name. -/
def isNameStart (c : Char) : Bool :=
  c = '_' || isLetter c

/-- A further character of a name. -/
def isNamePart (c : Char) : Bool :=
  isNameStart c || isDigit c

/-- What stands at the head of a text: a token or something skipped, with the number of characters it
    takes after the first one and the complaints about it. -/
structure Lexeme where
  kind : Option TokenClass
  length : Nat
  complaints : List Complaint
deriving DecidableEq, Repr

/-- The length of a comment between `/*` and `*/` after its first two characters, if it ends. -/
def commentLength? : List Char → Option Nat
  | '*' :: '/' :: _ => some 2
  | _ :: rest => (commentLength? rest).map (· + 1)
  | [] => none

/-- The lexeme that starts with `c`. -/
def lexeme (c : Char) (rest : List Char) : Lexeme :=
  if isBlank c then ⟨none, 0, []⟩
  else if isNameStart c then ⟨some .ident, (rest.takeWhile isNamePart).length, []⟩
  else if isDecimal c then
    let n := scanNumber false (c :: rest)
    ⟨some (if n.isFloat then .float else .int), n.length - 1, n.complaints⟩
  else if c = '"' then
    let e := quotedExtent '"' .plain rest
    ⟨some .string, e.length, e.complaints⟩
  else if c = '\'' then
    let e := quotedExtent '\'' .plain rest
    ⟨some .char, e.length,
      e.complaints ++ (if e.count = 1 then [] else [⟨e.length, "invalid char literal"⟩])⟩
  else if c = '\x60' then
    let e := rawExtent rest
    ⟨some .rawString, e.length, e.complaints⟩
  else if c = '.' && (rest.head?.map isDecimal).getD false then
    let n := scanNumber true rest
    ⟨some .float, n.length, n.complaints⟩
  else if c = '/' && rest.head? = some '/' then
    ⟨none, (rest.takeWhile (· ≠ '\n')).length, []⟩
  else if c = '/' && rest.head? = some '*' then
    match commentLength? (rest.drop 1) with
    | some n => ⟨none, n + 1, []⟩
    | none => ⟨none, rest.length, [⟨rest.length, "comment not terminated"⟩]⟩
  else ⟨some (.sign c), 0, []⟩

/-- The place after a glyph. -/
def advance (p : Position) (g : Glyph) : Position :=
  if g.char = '\n' then ⟨p.filename, p.offset + g.size, p.line + 1, 1⟩
  else ⟨p.filename, p.offset + g.size, p.line, p.column + 1⟩

/-- The complaint about a character that should not be in a text at all. -/
def readComplaint? (g : Glyph) : Option String :=
  match g with
  | .scalar c => if c.toNat = 0 then some "invalid character NUL" else none
  | .stray _ => some "invalid UTF-8 encoding"

/-- What a text is cut into: its tokens, the last one being its end, and the complaints about it. -/
structure Tokens where
  list : List Token
  complaints : List String
deriving Repr

/-- A complaint with the place it is made at. -/
def complain (place : Position) (message : String) : String :=
  describe place ++ ": " ++ message

/-- The complaints about a lexeme and about the characters read with it, in the order in which they are
    made. -/
def Lexeme.allComplaints (l : Lexeme) (rest : List Glyph) : List Complaint :=
  let read := (rest.take (l.length + 1)).zipIdx 1 |>.filterMap fun e =>
    (readComplaint? e.1).map (Complaint.mk e.2)
  read.merge l.complaints fun a b => a.seen ≤ b.seen

/-- The tokens of a text that starts at a place. With a lexeme the character behind it is read too, so
    that complaints about either are made at the start of the lexeme. White space is no lexeme: complaints
    about what is read behind it are made at the start of the comment before it, if there is one since the
    last token, else where they are due. -/
def tokensFrom (comment : Option Position) (place : Position) : List Glyph → Tokens
  | [] => ⟨[⟨.eof, [], place⟩], []⟩
  | g :: rest =>
    let l := lexeme g.char (rest.map Glyph.char)
    let taken := g :: rest.take l.length
    let next := taken.foldl advance place
    let start := if isBlank g.char then comment.getD next else place
    let comment := if isBlank g.char then comment else if l.kind.isNone then some place else none
    let more := tokensFrom comment next (rest.drop l.length)
    let complaints := (l.allComplaints rest).map (fun c => complain start c.text) ++ more.complaints
    match l.kind with
    | none => ⟨more.list, complaints⟩
    | some kind => ⟨⟨kind, taken, place⟩ :: more.list, complaints⟩
termination_by gs => gs.length
decreasing_by
  simp only [List.length_drop, List.length_cons]
  omega

/-- The tokens of a text that starts at a place, whose first character is read by itself. -/
def tokensAt (place : Position) (text : List Glyph) : Tokens :=
  let tokens := tokensFrom none place text
  { tokens with
    complaints := ((text.head?.bind readComplaint?).map (complain place)).toList ++ tokens.complaints }

/-- The tokens of a file. A byte order mark at its very start is passed over. -/
def tokenize (filename : String) (text : List Glyph) : Tokens :=
  match text with
  | [] => tokensAt (.start filename) []
  | g :: rest =>
    if g.char = '\uFEFF' then tokensAt (advance (.start filename) g) rest
    else tokensAt (.start filename) (g :: rest)

end Ebnf
end LetterGrammar
