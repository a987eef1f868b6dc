import LetterGrammar.Yaml.Scalar
import LetterGrammar.Yaml.Source
import LetterGrammar.Yaml.Tag

/-!
# YAML tokens

Tokens make the layout of a YAML text explicit: where a block starts and ends follows from the columns
of its lines, and a scalar turns out to be a key when a colon follows it on the same line. The text is
scanned no further than the next token requires. A token that may be a key is held back until it is
clear whether it is one.

## Contents

- **`Token`**: the signs, marks and scalars of a text.
- **`KeyPlace`**, **`Level`**: a place where a key may have started, for each flow collection.
- **`Scan`**: the state of the scan: indentation, levels, and the tokens that nobody took yet.
- **`Scan.fetch?`**: one more token.
- **`Scan.ready?`**: the scan with its first token settled.
-/

namespace LetterGrammar
namespace Yaml

/-- The tokens of a YAML text. -/
inductive Token
  | directive (d : Directive)
  | documentStart
  | documentEnd
  | blockSequenceStart
  | blockMappingStart
  | blockEnd
  | flowSequenceStart
  | flowSequenceEnd
  | flowMappingStart
  | flowMappingEnd
  | blockEntry
  | flowEntry
  | key
  | value
  | reference (name : String)
  | anchor (name : String)
  | tag (t : Tag)
  | scalar (text : String) (plain : Bool)
  | streamEnd
deriving DecidableEq, Repr

/-- A place where a key may have started: the number of its first token, the place, and whether a key
    must stand there. -/
structure KeyPlace where
  number : Nat
  index : Nat
  line : Nat
  column : Nat
  required : Bool
  /-- The token is held back until the key is settled. -/
  holds : Bool
deriving Repr

/-- What is known of keys inside a flow collection, or outside of all: the place where one may have
    started, and the token that was noted last, which is the opening sign at first. -/
structure Level where
  key : Option KeyPlace
  noted : Nat
deriving Repr

/-- The state of a scan. -/
structure Scan where
  cursor : Cursor
  /-- The text can be read to its end. -/
  whole : Bool
  /-- The tokens that nobody took yet. -/
  queue : List Token
  /-- How many tokens were taken. -/
  taken : Nat
  /-- The levels from the innermost flow collection outwards. -/
  levels : List Level
  indent : Int
  indents : List Int
  keyAllowed : Bool
deriving Repr

/-- How deep collections may be nested. -/
def depthLimit : Nat := 10000

namespace Scan

/-- The scan of a text before its first character. -/
def start (text : Source) : Scan :=
  ⟨.start text.chars, text.whole, [], 0, [⟨none, 0⟩], -1, [], true⟩

/-- The cursor is inside a flow collection. -/
def inFlow (s : Scan) : Bool := 1 < s.levels.length

/-- The number of the next token. -/
def count (s : Scan) : Nat := s.taken + s.queue.length

/-- Adds a token at the end. -/
def push (s : Scan) (t : Token) : Scan := { s with queue := s.queue ++ [t] }

/-- Adds a token before the one with the given number, or at the end if that one was taken already. -/
def insert (s : Scan) (number : Nat) (t : Token) : Scan :=
  if number < s.taken then s.push t
  else
    let n := number - s.taken
    { s with queue := s.queue.take n ++ t :: s.queue.drop n }

/-- The scan at another place. -/
def move (s : Scan) (c : Cursor) : Scan := { s with cursor := c }

/-- Allows or forbids a key at the next place. -/
def allowKey (s : Scan) (b : Bool) : Scan := { s with keyAllowed := b }

/-! ## Possible keys -/

/-- Gives up the possible key of the innermost level; fails if it is required. -/
def dropKey? (s : Scan) : Option Scan :=
  match s.levels with
  | ⟨some k, noted⟩ :: rest => if k.required then none else some { s with levels := ⟨none, noted⟩ :: rest }
  | _ => some s

/-- Notes that a key may start here. -/
def noteKey? (s : Scan) : Option Scan :=
  if s.keyAllowed then
    let required := !s.inFlow && s.indent = s.cursor.column
    let k : KeyPlace := ⟨s.count, s.cursor.index, s.cursor.line, s.cursor.column, required, true⟩
    s.dropKey?.map fun s => { s with levels := ⟨some k, s.count⟩ :: s.levels.drop 1 }
  else some s

/-- A key must end on its line and within 1024 characters. -/
def isStale (s : Scan) (k : KeyPlace) : Bool :=
  k.line < s.cursor.line || k.index + 1024 < s.cursor.index

/-- Opens the level of a flow collection. Fails beyond the limit of depth. -/
def openLevel? (s : Scan) : Option Scan :=
  if depthLimit < s.levels.length then none
  else some { s with levels := ⟨none, s.count⟩ :: s.levels }

/-- Closes the level of a flow collection. The token noted last there is no longer held back; in an empty
    collection this is its opening sign. -/
def closeLevel (s : Scan) : Scan :=
  match s.levels with
  | inner :: outer :: rest =>
    let release (k : KeyPlace) : KeyPlace := if k.number = inner.noted then { k with holds := false } else k
    { s with levels := { outer with key := outer.key.map release } :: rest }
  | _ => s

/-! ## Indentation -/

/-- Ends the blocks that are indented further than the column. -/
def unroll (s : Scan) (column : Int) : Scan :=
  if s.inFlow then s else go s column s.indents.length
where
  /-- Ends at most the given number of blocks. -/
  go (s : Scan) (column : Int) : Nat → Scan
    | 0 => s
    | n + 1 =>
      if column < s.indent then
        go { s.push .blockEnd with indent := s.indents.headD (-1), indents := s.indents.drop 1 }
          column n
      else s

/-- Starts a block at the column, if it is indented further than the block around it. Fails beyond the
    limit of depth. -/
def roll? (s : Scan) (column : Int) (number : Nat) (t : Token) : Option Scan :=
  if !s.inFlow && s.indent < column then
    if depthLimit ≤ s.indents.length then none
    else some { s.insert number t with indent := column, indents := s.indent :: s.indents }
  else some s

/-! ## Between tokens -/

/-- Passes over blanks, comments and line breaks, and over byte order marks at the start of a line. A tab
    is no blank where a key may start. -/
def skipToToken (s : Scan) : Nat → Scan
  | 0 => s
  | steps + 1 =>
    let isGap (x : Char) : Bool := x = ' ' || (x = '\t' && (s.inFlow || !s.keyAllowed))
    let c := if s.cursor.column = 0 && s.cursor.sees '\uFEFF' then s.cursor.skip else s.cursor
    let c := c.skipMany (c.rest.takeWhile isGap).length
    let c := if c.sees '#' then c.toLineEnd else c
    if c.atBreak then
      skipToToken { s with cursor := c.skipBreak, keyAllowed := s.keyAllowed || !s.inFlow } steps
    else s.move c

/-! ## Tokens -/

/-- What is common to marks and directives: all blocks end before them, and no key follows. -/
def endBlocks? (s : Scan) : Option Scan :=
  ((s.unroll (-1)).dropKey?).map fun s => s.allowKey false

/-- A mark at the start of a line. -/
def documentMark? (s : Scan) (t : Token) : Option Scan :=
  s.endBlocks?.map fun s => (s.push t).move (s.cursor.skipMany 3)

/-- A directive line. -/
def directive? (s : Scan) : Option Scan :=
  s.endBlocks?.bind fun s =>
    (Yaml.directive? s.cursor).map fun r => (s.push (.directive r.1)).move r.2

/-- The end of the text, which is also the end of its last line. -/
def finish? (s : Scan) : Option Scan :=
  let c := s.cursor
  let c := if c.column = 0 then c else { c with line := c.line + 1, column := 0 }
  (s.move c).endBlocks?.map fun s => s.push .streamEnd

/-- The start of a flow collection. -/
def flowStart? (s : Scan) (t : Token) : Option Scan :=
  s.noteKey?.bind fun s =>
    s.openLevel?.map fun s => ((s.allowKey true).push t).move s.cursor.skip

/-- The end of a flow collection. -/
def flowEnd? (s : Scan) (t : Token) : Option Scan :=
  s.dropKey?.map fun s => ((s.closeLevel.allowKey false).push t).move s.cursor.skip

/-- The comma of a flow collection. -/
def flowEntry? (s : Scan) : Option Scan :=
  s.dropKey?.map fun s => ((s.allowKey true).push .flowEntry).move s.cursor.skip

/-- The dash of a block sequence. -/
def blockEntry? (s : Scan) : Option Scan :=
  if !s.inFlow && !s.keyAllowed then none
  else
    (s.roll? s.cursor.column s.count .blockSequenceStart).bind fun s =>
      s.dropKey?.map fun s => ((s.allowKey true).push .blockEntry).move s.cursor.skip

/-- The question mark before a key. -/
def explicitKey? (s : Scan) : Option Scan :=
  if !s.inFlow && !s.keyAllowed then none
  else
    (s.roll? s.cursor.column s.count .blockMappingStart).bind fun s =>
      s.dropKey?.map fun s => ((s.allowKey (!s.inFlow)).push .key).move s.cursor.skip

/-- The colon after an explicit key. -/
def explicitValue? (s : Scan) : Option Scan :=
  if !s.inFlow && !s.keyAllowed then none
  else
    (s.roll? s.cursor.column s.count .blockMappingStart).map fun s =>
      ((s.allowKey (!s.inFlow)).push .value).move s.cursor.skip

/-- The colon after a key, which makes what was a possible key one. -/
def value? (s : Scan) : Option Scan :=
  match s.levels with
  | ⟨some k, noted⟩ :: rest =>
    let without := { s with levels := ⟨none, noted⟩ :: rest }
    if s.isStale k then if k.required then none else without.explicitValue?
    else
      ((without.insert k.number .key).roll? k.column k.number .blockMappingStart).map fun s =>
        ((s.allowKey false).push .value).move s.cursor.skip
  | _ => s.explicitValue?

/-- An anchor or an alias: a name after its sign. -/
def named? (s : Scan) (make : String → Token) : Option Scan :=
  s.noteKey?.bind fun s =>
    let c := s.cursor.skip
    let name := c.rest.takeWhile isNameChar
    let c := c.skipMany name.length
    let fits := c.endsWord 0
      || (c.rest.head?.map fun x => ['?', ':', ',', ']', '\x7d', '%', '@', '\x60'].contains x).getD false
    if name.isEmpty || !fits then none
    else some (((s.allowKey false).push (make (String.ofList name))).move c)

/-- A tag. -/
def tag? (s : Scan) : Option Scan :=
  s.noteKey?.bind fun s =>
    (Yaml.tag? s.cursor).map fun r => ((s.allowKey false).push (.tag r.1)).move r.2

/-- A block scalar. -/
def block? (s : Scan) (literal : Bool) : Option Scan :=
  s.dropKey?.bind fun s =>
    (blockScalar? literal s.indent s.cursor).map fun r =>
      ((s.allowKey true).push (.scalar (String.ofList r.1) false)).move r.2

/-- A quoted scalar. -/
def quoted? (s : Scan) (read : Cursor → Option (List Char × Cursor)) : Option Scan :=
  s.noteKey?.bind fun s =>
    (read s.cursor).map fun r =>
      ((s.allowKey false).push (.scalar (String.ofList r.1) false)).move r.2

/-- A plain scalar. -/
def plain? (s : Scan) : Option Scan :=
  s.noteKey?.bind fun s =>
    (plainScalar? s.inFlow (s.indent + 1) s.cursor).map fun r =>
      ((s.allowKey r.2.2).push (.scalar (String.ofList r.1) true)).move r.2.1

/-- A sign that cannot start a plain scalar. -/
def isIndicator (c : Char) : Bool :=
  ['-', '?', ':', ',', '[', ']', '\x7b', '\x7d', '#', '&', '*', '!', '|', '>', '\'', '"', '%', '@',
    '\x60'].contains c

/-- A plain scalar can start with the character. Some signs can, if something follows them. -/
def startsPlain (s : Scan) (c : Char) : Bool :=
  !(isBlank c || isBreak c || isIndicator c)
    || (c = '-' && !((s.cursor.peek 1).map isBlank).getD false)
    || (!s.inFlow && (c = '?' || c = ':') && !s.cursor.endsWord 1)

/-- The next token, which starts with the given character. -/
def token? (s : Scan) (c : Char) : Option Scan :=
  if s.cursor.column = 0 && c = '%' then s.directive?
  else if s.cursor.seesMark ['-', '-', '-'] then s.documentMark? .documentStart
  else if s.cursor.seesMark ['.', '.', '.'] then s.documentMark? .documentEnd
  else if c = '[' then s.flowStart? .flowSequenceStart
  else if c = '\x7b' then s.flowStart? .flowMappingStart
  else if c = ']' then s.flowEnd? .flowSequenceEnd
  else if c = '\x7d' then s.flowEnd? .flowMappingEnd
  else if c = ',' then s.flowEntry?
  else if c = '-' && s.cursor.endsWord 1 then s.blockEntry?
  else if c = '?' && (s.inFlow || s.cursor.endsWord 1) then s.explicitKey?
  else if c = ':' && (s.inFlow || s.cursor.endsWord 1) then s.value?
  else if c = '*' then s.named? .reference
  else if c = '&' then s.named? .anchor
  else if c = '!' then s.tag?
  else if c = '|' && !s.inFlow then s.block? true
  else if c = '>' && !s.inFlow then s.block? false
  else if c = '\'' then s.quoted? singleQuoted?
  else if c = '"' then s.quoted? doubleQuoted?
  else if s.startsPlain c then s.plain?
  else none

/-! ## On demand -/

/-- One more token. Four characters must be there to tell which one it is, and one to tell where it
    ends. -/
def fetch? (s : Scan) : Option Scan :=
  let s := s.skipToToken (s.cursor.rest.length + 1)
  let s := s.unroll s.cursor.column
  if !s.whole && s.cursor.rest.length < 4 then none
  else
    match s.cursor.rest with
    | [] => s.finish?
    | c :: _ => (s.token? c).filter fun s => s.whole || !s.cursor.rest.isEmpty

/-- The possible key for which the first token is held back. -/
def heldFor? (s : Scan) : Option KeyPlace :=
  s.levels.findSome? fun l => l.key.filter fun k => k.number = s.taken && k.holds

/-- The possible key is none. -/
def forget (s : Scan) (k : KeyPlace) : Scan :=
  { s with levels := s.levels.map fun l => { l with key := l.key.filter fun x => x.number ≠ k.number } }

/-- Fetches tokens until the first one is settled. -/
def settle? : Nat → Scan → Option Scan
  | 0, _ => none
  | steps + 1, s =>
    if s.queue.isEmpty then s.fetch?.bind (settle? steps)
    else
      match s.heldFor? with
      | none => some s
      | some k =>
        if s.isStale k then if k.required then none else some (s.forget k)
        else s.fetch?.bind (settle? steps)

/-- The scan with its first token settled. Every token but the last takes at least one character. -/
def ready? (s : Scan) : Option Scan := s.settle? (s.cursor.rest.length + 3)

/-- The scan without its first token. -/
def next (s : Scan) : Scan := { s with queue := s.queue.drop 1, taken := s.taken + 1 }

end Scan

end Yaml
end LetterGrammar
