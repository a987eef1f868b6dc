import LetterGrammar.Text.Digit
import LetterGrammar.Yaml.Cursor

/-!
# YAML scalars

Scalars come in three shapes: plain, quoted, and as an indented block. Each function reads one scalar
from a cursor and returns its text and the place after it, or nothing if the scalar is malformed.

## Contents

- **`plainScalar?`**: words up to a sign that cannot belong to them.
- **`singleQuoted?`**, **`doubleQuoted?`**: text between quotes.
- **`blockScalar?`**: the indented lines after `|` or `>`.
-/

namespace LetterGrammar
namespace Yaml

/-! ## Plain scalars -/

/-- A bracket or comma, which ends a plain scalar inside a flow collection. -/
def isFlowSign (c : Char) : Bool :=
  [',', '?', '[', ']', '\x7b', '\x7d'].contains c

/-- The characters of a plain scalar up to a blank or a sign that ends it. -/
def plainRun (flow : Bool) : List Char → List Char
  | [] => []
  | c :: rest =>
    if isBlank c || isBreak c then []
    else if c = ':' && (rest.head?.map fun x => isBlank x || isBreak x).getD true then []
    else if flow && isFlowSign c then []
    else c :: plainRun flow rest

/-- The text of a plain scalar, the place after it, and whether a line break was passed at its end. -/
def plainFrom? (flow : Bool) (indent : Int) : Nat → Cursor → List Char → List Char →
    Bool → Option (List Char × Cursor × Bool)
  | 0, c, text, _, broken => some (text, c, broken)
  | steps + 1, c, text, pending, broken =>
    if c.seesDocumentMark || c.sees '#' then some (text, c, broken)
    else
      let run := plainRun flow c.rest
      if run.isEmpty then some (text, c, broken)
      else
        let text := text ++ pending ++ run
        let c := c.skipMany run.length
        if c.atBlank || c.atBreak then
          let (g, c) := gap indent false (c.rest.length + 1) c ⟨[], [], false⟩
          if g.badTab then none
          else if !flow && (c.column : Int) < indent then some (text, c, !g.breaks.isEmpty)
          else plainFrom? flow indent steps c text g.fold (!g.breaks.isEmpty)
        else some (text, c, false)

/-- A plain scalar. -/
def plainScalar? (flow : Bool) (indent : Int) (c : Cursor) : Option (List Char × Cursor × Bool) :=
  plainFrom? flow indent (c.rest.length + 1) c [] [] false

/-! ## Quoted scalars -/

/-- The character of an escape and the number of characters after the backslash it takes. -/
def escape? : List Char → Option (Char × Nat)
  | '0' :: _ => some ('\x00', 1)
  | 'a' :: _ => some ('\x07', 1)
  | 'b' :: _ => some ('\x08', 1)
  | 't' :: _ => some ('\t', 1)
  | '\t' :: _ => some ('\t', 1)
  | 'n' :: _ => some ('\n', 1)
  | 'v' :: _ => some ('\x0b', 1)
  | 'f' :: _ => some ('\x0c', 1)
  | 'r' :: _ => some ('\r', 1)
  | 'e' :: _ => some ('\x1b', 1)
  | ' ' :: _ => some (' ', 1)
  | '"' :: _ => some ('"', 1)
  | '\'' :: _ => some ('\'', 1)
  | '\\' :: _ => some ('\\', 1)
  | 'N' :: _ => some ('\u0085', 1)
  | '_' :: _ => some ('\u00a0', 1)
  | 'L' :: _ => some ('\u2028', 1)
  | 'P' :: _ => some ('\u2029', 1)
  | 'x' :: rest => (hexChar? 2 rest).map (·, 3)
  | 'u' :: rest => (hexChar? 4 rest).map (·, 5)
  | 'U' :: rest => (hexChar? 8 rest).map (·, 9)
  | _ => none

/-- A text between single quotes, the cursor being inside them. A quote in the text is doubled. -/
def singleFrom? : Nat → Cursor → List Char → Option (List Char × Cursor)
  | 0, _, _ => none
  | steps + 1, c, text =>
    if c.seesDocumentMark then none
    else
      match c.rest with
      | [] => none
      | '\'' :: '\'' :: _ => singleFrom? steps (c.skipMany 2) (text ++ ['\''])
      | '\'' :: _ => some (text, c.skip)
      | x :: _ =>
        if isBlank x || isBreak x then
          let (g, c) := gap 0 false (c.rest.length + 1) c ⟨[], [], false⟩
          singleFrom? steps c (text ++ g.fold)
        else singleFrom? steps c.skip (text ++ [x])

/-- A text between single quotes. -/
def singleQuoted? (c : Cursor) : Option (List Char × Cursor) :=
  singleFrom? (c.rest.length + 1) c.skip []

/-- A text between double quotes, the cursor being inside them. -/
def doubleFrom? : Nat → Cursor → List Char → Option (List Char × Cursor)
  | 0, _, _ => none
  | steps + 1, c, text =>
    if c.seesDocumentMark then none
    else
      match c.rest with
      | [] => none
      | '"' :: _ => some (text, c.skip)
      | '\\' :: after =>
        if c.skip.atBreak then
          -- an escaped line break joins two lines
          let next := c.skip.skipBreak
          let (g, next) := gap 0 true (next.rest.length + 1) next ⟨[], [], false⟩
          doubleFrom? steps next (text ++ g.breaks)
        else
          match escape? after with
          | some (x, n) => doubleFrom? steps (c.skipMany (n + 1)) (text ++ [x])
          | none => none
      | x :: _ =>
        if isBlank x || isBreak x then
          let (g, c) := gap 0 false (c.rest.length + 1) c ⟨[], [], false⟩
          doubleFrom? steps c (text ++ g.fold)
        else doubleFrom? steps c.skip (text ++ [x])

/-- A text between double quotes. -/
def doubleQuoted? (c : Cursor) : Option (List Char × Cursor) :=
  doubleFrom? (c.rest.length + 1) c.skip []

/-! ## Block scalars -/

/-- What becomes of the line breaks at the end of a block. -/
inductive Chomping
  | strip
  | clip
  | keep
deriving DecidableEq, Repr

/-- The chomping that a sign asks for. -/
def chomping? (c : Option Char) : Option Chomping :=
  match c with
  | some '+' => some .keep
  | some '-' => some .strip
  | _ => none

/-- The indentation that a digit asks for; zero is none. -/
def indentation? (c : Option Char) : Option Nat :=
  match c with
  | some d => if '1' ≤ d && d ≤ '9' then some (d.toNat - 48) else none
  | none => none

/-- The header of a block after its sign: chomping, indentation, and the number of characters. -/
def blockHeader (c : Cursor) : Chomping × Option Nat × Nat :=
  match chomping? (c.peek 0), indentation? (c.peek 0) with
  | some k, _ =>
    match indentation? (c.peek 1) with
    | some i => (k, some i, 2)
    | none => (k, none, 1)
  | none, some i =>
    match chomping? (c.peek 1) with
    | some k => (k, some i, 2)
    | none => (.clip, some i, 1)
  | none, none => (.clip, none, 0)

/-- Empty lines and indentation before a line of a block. Returns the line breaks, the place of the
    line, and the greatest column seen; fails at a tab in the indentation. An indentation of zero is yet
    to be found. -/
def blockBreaks? (indent : Nat) : Nat → Cursor → List Char → Nat →
    Option (List Char × Cursor × Nat)
  | 0, c, breaks, widest => some (breaks, c, widest)
  | steps + 1, c, breaks, widest =>
    let spaces := (c.rest.takeWhile (· = ' ')).length
    let n := if indent = 0 then spaces else min spaces (indent - c.column)
    let c := c.skipMany n
    let widest := max widest c.column
    if (indent = 0 || c.column < indent) && c.sees '\t' then none
    else if c.atBreak then
      blockBreaks? indent steps c.skipBreak (breaks ++ [c.breakChar]) widest
    else some (breaks, c, widest)

/-- The state of a block: its text, the line break after its last line, the empty lines after that, and
    whether the last line started with a blank. -/
structure Block where
  text : List Char
  lastBreak : List Char
  breaks : List Char
  indented : Bool

/-- The lines of a block with a known indentation. -/
def blockLines? (literal : Bool) (indent : Nat) : Nat → Cursor → Block → Option (Block × Cursor)
  | 0, c, b => some (b, c)
  | steps + 1, c, b =>
    if c.column ≠ indent || c.atEnd then some (b, c)
    else
      let indented := c.atBlank
      let joint :=
        if !literal && !b.indented && !indented && b.lastBreak.head? = some '\n' then
          if b.breaks.isEmpty then [' '] else []
        else b.lastBreak
      let line := c.rest.takeWhile fun x => !isBreak x
      let c := c.skipMany line.length
      let lastBreak := if c.atBreak then [c.breakChar] else []
      let c := if c.atBreak then c.skipBreak else c
      match blockBreaks? indent (c.rest.length + 1) c [] 0 with
      | none => none
      | some (breaks, c, _) =>
        blockLines? literal indent steps c
          ⟨b.text ++ joint ++ b.breaks ++ line, lastBreak, breaks, indented⟩

/-- A block scalar, the cursor being at its sign, inside a block with the given indentation. -/
def blockScalar? (literal : Bool) (parent : Int) (c : Cursor) : Option (List Char × Cursor) :=
  let c := c.skip
  let (chomping, increment, n) := blockHeader c
  let c := (c.skipMany n).skipBlanks
  let c := if c.sees '#' then c.toLineEnd else c
  if !c.endsLine then none
  else
    let c := if c.atBreak then c.skipBreak else c
    let given := match increment with
      | some i => if 0 ≤ parent then parent.toNat + i else i
      | none => 0
    match blockBreaks? given (c.rest.length + 1) c [] 0 with
    | none => none
    | some (breaks, c, widest) =>
      let indent := if given = 0 then max widest (max (parent + 1).toNat 1) else given
      match blockLines? literal indent (c.rest.length + 1) c ⟨[], [], breaks, false⟩ with
      | none => none
      | some (b, c) =>
        let tail := match chomping with
          | .strip => []
          | .clip => b.lastBreak
          | .keep => b.lastBreak ++ b.breaks
        some (b.text ++ tail, c)

end Yaml
end LetterGrammar
