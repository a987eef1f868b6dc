/-!
# Reading a YAML text

A cursor is a place in a YAML text together with what follows it. The layout of a YAML text carries
meaning, so the cursor knows its line and its column.

## Contents

- **`Cursor`**: moving over characters and line breaks.
- **`isBlank`**, **`isBreak`**, **`isNameChar`**: the classes of characters that matter for the layout.
- **`Gap`**, **`gap`**: what stands between two words of a scalar.
-/

namespace LetterGrammar
namespace Yaml

/-- A space or a tab. -/
def isBlank (c : Char) : Bool :=
  c = ' ' || c = '\t'

/-- A line break. -/
def isBreak (c : Char) : Bool :=
  c = '\n' || c = '\r' || c.toNat = 0x85 || c.toNat = 0x2028 || c.toNat = 0x2029

/-- A character of an anchor, of a tag or of the name of a directive. -/
def isNameChar (c : Char) : Bool :=
  c.isAlphanum || c = '_' || c = '-'

/-- A place in a text: what follows it, and how far, in which line and in which column it is. -/
structure Cursor where
  rest : List Char
  index : Nat
  line : Nat
  column : Nat
deriving Repr

namespace Cursor

/-- The first place of a text. -/
def start (text : List Char) : Cursor := ⟨text, 0, 0, 0⟩

/-- The character at a distance. -/
def peek (c : Cursor) (distance : Nat) : Option Char := c.rest[distance]?

/-- The place after one character of the line. -/
def skip (c : Cursor) : Cursor :=
  match c.rest with
  | [] => c
  | _ :: rest => ⟨rest, c.index + 1, c.line, c.column + 1⟩

/-- The place after a number of characters of the line. -/
def skipMany (c : Cursor) (n : Nat) : Cursor :=
  ⟨c.rest.drop n, c.index + n, c.line, c.column + n⟩

/-- The place after a line break. A carriage return and a line feed are one break. -/
def skipBreak (c : Cursor) : Cursor :=
  match c.rest with
  | '\r' :: '\n' :: rest => ⟨rest, c.index + 2, c.line + 1, 0⟩
  | _ :: rest => ⟨rest, c.index + 1, c.line + 1, 0⟩
  | [] => c

/-- The character a line break stands for. -/
def breakChar (c : Cursor) : Char :=
  match c.rest with
  | b :: _ => if b.toNat = 0x2028 || b.toNat = 0x2029 then b else '\n'
  | [] => '\n'

/-- A blank follows. -/
def atBlank (c : Cursor) : Bool := (c.rest.head?.map isBlank).getD false

/-- A line break follows. -/
def atBreak (c : Cursor) : Bool := (c.rest.head?.map isBreak).getD false

/-- Nothing follows. -/
def atEnd (c : Cursor) : Bool := c.rest.isEmpty

/-- A given character follows. -/
def sees (c : Cursor) (x : Char) : Bool := c.rest.head? = some x

/-- A word cannot go on: a blank, a line break or the end of the text stands at a distance. -/
def endsWord (c : Cursor) (distance : Nat) : Bool :=
  match c.peek distance with
  | none => true
  | some x => isBlank x || isBreak x

/-- The line ends here. -/
def endsLine (c : Cursor) : Bool := c.atEnd || c.atBreak

/-- The given three-character mark stands at the start of a line and ends there. -/
def seesMark (c : Cursor) (mark : List Char) : Bool :=
  c.column = 0 && c.rest.take 3 = mark && c.endsWord 3

/-- A mark that starts or ends a document follows. -/
def seesDocumentMark (c : Cursor) : Bool :=
  c.seesMark ['-', '-', '-'] || c.seesMark ['.', '.', '.']

/-- The place where the line ends. -/
def toLineEnd (c : Cursor) : Cursor :=
  c.skipMany (c.rest.takeWhile fun x => !isBreak x).length

/-- The place after the blanks that follow. -/
def skipBlanks (c : Cursor) : Cursor :=
  c.skipMany (c.rest.takeWhile isBlank).length

end Cursor

/-! ## Gaps -/

/-- What stands between two words of a scalar: blanks, or line breaks with blanks around them. -/
structure Gap where
  blanks : List Char
  breaks : List Char
  /-- A tab stands where the indentation of a line belongs. -/
  badTab : Bool
deriving Repr

/-- A gap in a scalar whose lines must reach the given column. With `broken` the gap counts as
    having a line break already. -/
def gap (indent : Int) (broken : Bool) : Nat → Cursor → Gap → Gap × Cursor
  | 0, c, g => (g, c)
  | steps + 1, c, g =>
    if c.atBlank then
      if broken || !g.breaks.isEmpty then
        gap indent broken steps c.skip
          { g with badTab := g.badTab || (c.sees '\t' && (c.column : Int) < indent) }
      else gap indent broken steps c.skip { g with blanks := g.blanks ++ [c.rest.headD ' '] }
    else if c.atBreak then
      gap indent broken steps c.skipBreak { g with breaks := g.breaks ++ [c.breakChar] }
    else (g, c)

/-- The characters a gap stands for: a single line break folds into a space. -/
def Gap.fold (g : Gap) : List Char :=
  match g.breaks with
  | [] => g.blanks
  | ['\n'] => [' ']
  | '\n' :: more => more
  | breaks => breaks

end Yaml
end LetterGrammar
