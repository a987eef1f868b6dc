import LetterGrammar.Text.Digit
import LetterGrammar.Yaml.Cursor

/-!
# YAML tags and directives

A tag says how a node is meant. It is written `!<uri>` in full, or as a handle and a suffix, and a
directive at the start of a document says what a handle stands for.

## Contents

- **`uri?`**, **`handle?`**: the parts of a tag.
- **`Tag`**, **`tag?`**: a tag as written.
- **`Directive`**, **`directive?`**: the two directives.
- **`Tag.resolve?`**: the full tag.
-/

namespace LetterGrammar
namespace Yaml

/-! ## The parts of a tag -/

/-- A character of a URI. -/
def isUriChar (c : Char) : Bool :=
  isNameChar c || [';', '/', '?', ':', '@', '&', '=', '+', '$', ',', '.', '!', '~', '*', '\'', '(', ')',
    '[', ']', '%'].contains c

/-- The byte that a percent sign and two hexadecimal digits stand for. -/
def octet? (c : Cursor) : Option Nat :=
  if c.sees '%' then hexCode? 2 (c.rest.drop 1) else none

/-- The number of bytes of a character, by its first byte. -/
def octetCount? (octet : Nat) : Option Nat :=
  if octet < 0x80 then some 1
  else if 0xC0 ≤ octet && octet < 0xE0 then some 2
  else if 0xE0 ≤ octet && octet < 0xF0 then some 3
  else if 0xF0 ≤ octet && octet < 0xF8 then some 4
  else none

/-- Further bytes of a character, each as the character with its code. -/
def octetTail? : Nat → Cursor → Option (List Char × Cursor)
  | 0, c => some ([], c)
  | n + 1, c =>
    match octet? c with
    | some o =>
      if 0x80 ≤ o && o < 0xC0 then
        (octetTail? n (c.skipMany 3)).map fun r => (Char.ofNat o :: r.1, r.2)
      else none
    | none => none

/-- The bytes of one character in a URI, each as the character with its code. -/
def uriEscape? (c : Cursor) : Option (List Char × Cursor) :=
  (octet? c).bind fun o =>
    (octetCount? o).bind fun n =>
      (octetTail? (n - 1) (c.skipMany 3)).map fun r => (Char.ofNat o :: r.1, r.2)

/-- The characters of a URI. Escapes are resolved. -/
def uriFrom? : Nat → Cursor → Option (List Char × Cursor)
  | 0, c => some ([], c)
  | steps + 1, c =>
    match c.rest with
    | [] => some ([], c)
    | x :: _ =>
      if x = '%' then
        match uriEscape? c with
        | none => none
        | some (head, c) => (uriFrom? steps c).map fun r => (head ++ r.1, r.2)
      else if isUriChar x then (uriFrom? steps c.skip).map fun r => (x :: r.1, r.2)
      else some ([], c)

/-- The characters of a URI, of which there may be none. -/
def anyUri? (c : Cursor) : Option (List Char × Cursor) :=
  uriFrom? (c.rest.length + 1) c

/-- The characters of a URI. -/
def uri? (c : Cursor) : Option (List Char × Cursor) :=
  (anyUri? c).filter fun r => r.2.index ≠ c.index

/-- A handle: an exclamation mark, possibly with a name and a second mark after it. -/
def handle? (c : Cursor) : Option (List Char × Cursor) :=
  if c.sees '!' then
    let name := c.skip.rest.takeWhile isNameChar
    let c := c.skip.skipMany name.length
    if c.sees '!' then some ('!' :: name ++ ['!'], c.skip) else some ('!' :: name, c)
  else none

/-- The text is a handle with a second mark. -/
def isNamedHandle (handle : List Char) : Bool :=
  1 < handle.length && handle.getLast? = some '!'

/-! ## Tags -/

/-- A tag as written. A full tag has no handle. -/
structure Tag where
  handle : List Char
  suffix : List Char
deriving DecidableEq, Repr

/-- A tag between angle brackets, the cursor being after the opening one. -/
def fullTag? (c : Cursor) : Option (Tag × Cursor) :=
  (uri? c).bind fun r => if r.2.sees '>' then some (⟨[], r.1⟩, r.2.skip) else none

/-- A tag with a handle. An exclamation mark alone is a full tag. -/
def shortTag? (c : Cursor) : Option (Tag × Cursor) :=
  (handle? c).bind fun h =>
    if isNamedHandle h.1 then (uri? h.2).map fun r => (⟨h.1, r.1⟩, r.2)
    else
      (anyUri? h.2).map fun r =>
        let suffix := h.1.drop 1 ++ r.1
        (if suffix.isEmpty then ⟨[], ['!']⟩ else ⟨['!'], suffix⟩, r.2)

/-- A tag, which must be followed by a blank or the end of the line. -/
def tag? (c : Cursor) : Option (Tag × Cursor) :=
  (if c.peek 1 = some '<' then fullTag? (c.skipMany 2) else shortTag? c).filter fun r => r.2.endsWord 0

/-! ## Directives -/

/-- A directive: the version of YAML, or what a handle stands for. -/
inductive Directive
  | version (major minor : Nat)
  | handle (name lead : List Char)
deriving DecidableEq, Repr

/-- A version number of one or two digits. -/
def versionNumber? (c : Cursor) : Option (Nat × Cursor) :=
  let digits := c.rest.takeWhile isDecimal
  if digits.isEmpty || 2 < digits.length then none
  else (digitsValue? 10 digits).map fun n => (n, c.skipMany digits.length)

/-- The numbers of a version. -/
def version? (c : Cursor) : Option (Directive × Cursor) :=
  (versionNumber? c.skipBlanks).bind fun major =>
    if major.2.sees '.' then
      (versionNumber? major.2.skip).map fun minor => (.version major.1 minor.1, minor.2)
    else none

/-- A handle and what it stands for. -/
def handleMeaning? (c : Cursor) : Option (Directive × Cursor) :=
  (handle? c.skipBlanks).bind fun h =>
    if (isNamedHandle h.1 || h.1 = ['!']) && h.2.atBlank then
      (uri? h.2.skipBlanks).bind fun r =>
        if r.2.endsWord 0 then some (.handle h.1 r.1, r.2) else none
    else none

/-- A directive line, the cursor being at its percent sign. A comment may end it. -/
def directive? (c : Cursor) : Option (Directive × Cursor) :=
  let name := c.skip.rest.takeWhile isNameChar
  let c := c.skip.skipMany name.length
  let read :=
    if !c.endsWord 0 then none
    else if name = "YAML".toList then version? c
    else if name = "TAG".toList then handleMeaning? c
    else none
  read.bind fun r =>
    let c := r.2.skipBlanks
    let c := if c.sees '#' then c.toLineEnd else c
    if c.endsLine then some (r.1, if c.atBreak then c.skipBreak else c) else none

/-! ## Meaning -/

/-- What handles stand for. -/
abbrev Handles := List (List Char × List Char)

/-- What handles stand for if no directive says otherwise. -/
def defaultHandles : Handles :=
  [(['!'], ['!']), (['!', '!'], "tag:yaml.org,2002:".toList)]

/-- The full tag, if its handle is known. -/
def Tag.resolve? (handles : Handles) (t : Tag) : Option String :=
  if t.handle.isEmpty then some (String.ofList t.suffix)
  else (handles.lookup t.handle).map fun lead => String.ofList (lead ++ t.suffix)

end Yaml
end LetterGrammar
