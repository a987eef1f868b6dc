import LetterGrammar.Text.Digit
import LetterGrammar.Text.Glyph

/-!
# Literals of the EBNF notation

A literal is a text between double quotes, with escapes, or between backquotes, as it is. This module
finds where a literal ends and what it stands for. A malformed literal still ends somewhere; it is
complained about and stands for nothing. A complaint is made as soon as it is due, so it knows how much of
the text had been read by then.

## Contents

- **`Complaint`**: a complaint, and when it is made.
- **`LiteralState`**, **`quotedExtent`**: the end of a quoted literal.
- **`rawExtent`**: the end of a raw literal.
- **`unquote?`**: the value of a literal.
-/

namespace LetterGrammar
namespace Ebnf

/-- A complaint about a piece of a text, made when `seen` characters after the first one had been read. -/
structure Complaint where
  seen : Nat
  text : String
deriving DecidableEq, Repr

/-- The same complaint, made so many characters later. -/
def Complaint.after (c : Complaint) (n : Nat) : Complaint := ⟨c.seen + n, c.text⟩

/-! ## The end of a literal -/

/-- Where a scan stands inside a quoted literal. -/
inductive LiteralState
  /-- Between characters. -/
  | plain
  /-- Behind a backslash. -/
  | escape
  /-- In a numeric escape that lacks `missing` digits to the base. -/
  | digits (base missing : Nat)
deriving DecidableEq, Repr

/-- How far a literal reaches: the number of characters after its opening quote, the number of
    characters it stands for, and the complaints about it. -/
structure Extent where
  length : Nat
  count : Nat
  complaints : List Complaint
deriving DecidableEq, Repr

/-- The complaint about an escape that is none. -/
def badEscape : String := "invalid char escape"

/-- The complaint about a literal without an end. -/
def notTerminated : String := "literal not terminated"

/-- The state after a character behind a backslash, if the character makes an escape. -/
def escapeState? (quote c : Char) : Option LiteralState :=
  if c = quote || ['a', 'b', 'f', 'n', 'r', 't', 'v', '\\'].contains c then some .plain
  else if '0' ≤ c && c ≤ '7' then some (.digits 8 2)
  else if c = 'x' then some (.digits 16 2)
  else if c = 'u' then some (.digits 16 4)
  else if c = 'U' then some (.digits 16 8)
  else none

/-- A longer extent: one character more, `count` characters meant, and complaints before the others. -/
def Extent.extend (e : Extent) (count : Nat) (complaints : List String) : Extent :=
  ⟨e.length + 1, e.count + count,
    complaints.map (Complaint.mk 1) ++ e.complaints.map fun c => c.after 1⟩

/-- The extent of a quoted literal. A line break ends it and belongs to it; so does the end of the
    text. -/
def quotedExtent (quote : Char) : LiteralState → List Char → Extent
  | .plain, [] => ⟨0, 0, [⟨0, notTerminated⟩]⟩
  | .escape, [] => ⟨0, 1, [⟨0, badEscape⟩, ⟨0, notTerminated⟩]⟩
  | .digits _ 0, [] => ⟨0, 1, [⟨0, notTerminated⟩]⟩
  | .digits _ (_ + 1), [] => ⟨0, 1, [⟨0, badEscape⟩, ⟨0, notTerminated⟩]⟩
  | state, c :: rest =>
    -- the number of characters finished before `c`, and the complaint about the last of them
    let (finished, complaint) := match state with
      | .plain => (0, [])
      | .escape => (if (escapeState? quote c).isSome then 0 else 1,
          if (escapeState? quote c).isSome then [] else [badEscape])
      | .digits base missing =>
        if 0 < missing && digitValue c < base then (0, [])
        else (1, if 0 < missing then [badEscape] else [])
    let next : Option LiteralState := match state with
      | .plain => none
      | .escape => escapeState? quote c
      | .digits base missing =>
        if 0 < missing && digitValue c < base then some (.digits base (missing - 1)) else none
    match next with
    | some .plain => (quotedExtent quote .plain rest).extend 1 []
    | some s => (quotedExtent quote s rest).extend 0 []
    | none =>
      if c = quote then ⟨1, finished, complaint.map (Complaint.mk 1)⟩
      else if c = '\n' then ⟨1, finished, (complaint ++ [notTerminated]).map (Complaint.mk 1)⟩
      else if c = '\\' then (quotedExtent quote .escape rest).extend finished complaint
      else (quotedExtent quote .plain rest).extend (finished + 1) complaint

/-- The extent of a raw literal, up to the next backquote. -/
def rawExtent (text : List Char) : Extent :=
  let inside := text.takeWhile (· ≠ '\x60')
  if inside.length < text.length then ⟨inside.length + 1, inside.length, []⟩
  else ⟨inside.length, inside.length, [⟨inside.length, notTerminated⟩]⟩

/-! ## The value of a literal -/

/-- The value of `n` digits to the base at the head of a text, and the text after them. -/
def number? (base : Nat) : Nat → Nat → List Glyph → Option (Nat × List Glyph)
  | 0, value, rest => some (value, rest)
  | _ + 1, _, [] => none
  | n + 1, value, g :: rest =>
    if digitValue g.char < base then number? base n (value * base + digitValue g.char) rest else none

/-- The character with a code, as bytes; none if there is no such character. -/
def scalarBytes? (code : Nat) : Option (List UInt8) :=
  if code.isValidChar then some (String.utf8EncodeChar (Char.ofNat code)) else none

/-- The byte of an escape letter. -/
def simpleEscape? (c : Char) : Option UInt8 :=
  match c with
  | 'a' => some 7
  | 'b' => some 8
  | 'f' => some 12
  | 'n' => some 10
  | 'r' => some 13
  | 't' => some 9
  | 'v' => some 11
  | '\\' => some 92
  | '"' => some 34
  | _ => none

/-- The bytes of the escape whose first character follows the backslash, and the text after it. -/
def escapeBytes? (c : Char) (rest : List Glyph) : Option (List UInt8 × List Glyph) :=
  match simpleEscape? c with
  | some b => some ([b], rest)
  | none =>
    if '0' ≤ c && c ≤ '7' then
      match number? 8 2 (digitValue c) rest with
      | some (v, after) => if v < 256 then some ([v.toUInt8], after) else none
      | none => none
    else if c = 'x' then (number? 16 2 0 rest).map fun r => ([r.1.toUInt8], r.2)
    else if c = 'u' then (number? 16 4 0 rest).bind fun r => (scalarBytes? r.1).map (·, r.2)
    else if c = 'U' then (number? 16 8 0 rest).bind fun r => (scalarBytes? r.1).map (·, r.2)
    else none

/-- The bytes of a literal after its opening double quote, which must end with the closing one. At most
    `steps` characters and escapes are read. -/
def quotedBytes? : Nat → List Glyph → Option (List UInt8)
  | 0, _ => none
  | _, [] => none
  | steps + 1, g :: rest =>
    if g.char = '"' then if rest.isEmpty then some [] else none
    else if g.char = '\n' then none
    else if g.char = '\\' then
      match rest with
      | [] => none
      | e :: after =>
        match escapeBytes? e.char after with
        | none => none
        | some (b, after') => (quotedBytes? steps after').map (b ++ ·)
    else (quotedBytes? steps rest).map (String.utf8EncodeChar g.char ++ ·)

/-- The value of a literal given with its quotes. Raw literals lose their carriage returns. -/
def unquote? (literal : List Glyph) : Option (List Glyph) :=
  match literal with
  | [] => none
  | q :: rest =>
    if q.char = '\x60' then
      match rest.getLast? with
      | some e =>
        if e.char = '\x60' then some (rest.dropLast.filter fun g => g.char ≠ '\r') else none
      | none => none
    else (quotedBytes? (rest.length + 1) rest).map Glyph.decode

end Ebnf
end LetterGrammar
