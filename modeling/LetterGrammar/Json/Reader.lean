import LetterGrammar.Json.Value

/-!
# Reading JSON

The first value of a text is read; what follows it does not matter. A text that is no JSON is refused at
the first character that cannot belong to a value.

## Contents

- **`JsonError`**, **`JsonError.message`**: why a text is refused.
- **`readNumber`**, **`readText`**: numbers and texts.
- **`readValue`**, **`Json.read`**: values of any kind.
- **`Json.readObject`**: the fields of an object, all of whose numbers are in range.
-/

namespace LetterGrammar

/-- Why a text is refused. -/
inductive JsonError
  /-- There is no value. -/
  | empty
  /-- The text ends inside a value. -/
  | cut
  /-- A character cannot stand where it does. -/
  | unexpected (g : Glyph) (place : String)
  /-- An escape stands for nothing. -/
  | badEscape (escape : List UInt8)
  /-- The number at a path is out of range. -/
  | range (number : String) (path : List String)
  /-- A value is not of the kind asked for. -/
  | mismatch (kind expected : String)
deriving DecidableEq, Repr

namespace JsonError

/-- What was read, between single quotes. -/
def glyphText (g : Glyph) : String :=
  match g with
  | .scalar '\'' => "'\\''"
  | .scalar '"' => "'\"'"
  | g => String.ofList ('\'' :: quoteGlyph g ++ ['\''])

/-- An escape between backquotes, or between double quotes if it would not be readable. -/
def escapeText (escape : List UInt8) : String :=
  let glyphs := Glyph.decode escape
  let readable (c : Char) : Bool := c ≠ '\x60' && c ≠ replacementChar && c ≠ ' ' && isPrintable c
  if glyphs.all fun g => readable g.char then "\x60" ++ Glyph.text glyphs ++ "\x60" else quoteGlyphs glyphs

/-- A part of a path, in which a slash and a tilde are escaped. -/
def pathPart (part : String) : String :=
  String.join (part.toList.map fun c =>
    if c = '~' then "~0" else if c = '/' then "~1" else String.singleton c)

/-- The wording of an error. -/
def message : JsonError → String
  | empty => "EOF"
  | cut => "unexpected EOF"
  | unexpected g place => "invalid character " ++ glyphText g ++ " " ++ place
  | badEscape escape => "invalid escape sequence " ++ escapeText escape ++ " in string"
  | range number path =>
    "json: cannot unmarshal number " ++ number ++ " into Go struct field ."
    ++ String.intercalate "." (path.map pathPart) ++ " of type float64"
  | mismatch kind expected => "json: cannot unmarshal " ++ kind ++ " into Go value of type " ++ expected

end JsonError

namespace Json

/-- White space between the parts of a value. -/
def isSpace (c : Char) : Bool :=
  c = ' ' || c = '\t' || c = '\r' || c = '\n'

/-- The text after white space. -/
def skipSpace (input : List Glyph) : List Glyph :=
  input.dropWhile fun g => isSpace g.char

/-- Refuses the text at its first character, or at its end. -/
def refuse {α : Type} (place : String) : List Glyph → Except JsonError α
  | [] => .error .cut
  | g :: _ => .error (.unexpected g place)

/-! ## Numbers -/

/-- A run of digits and the text after it. -/
def digitRun (input : List Glyph) : List Char × List Glyph :=
  ((input.takeWhile fun g => isDecimal g.char).map Glyph.char, input.dropWhile fun g => isDecimal g.char)

/-- The digits before the decimal point: a zero, or digits that start with none. -/
def readWhole (input : List Glyph) : Except JsonError (List Char × List Glyph) :=
  match digitRun input with
  | ([], _) => refuse "in numeric literal" input
  | ('0' :: _, _) => .ok (['0'], input.drop 1)
  | (digits, rest) => .ok (digits, rest)

/-- The digits after a decimal point, if there is one. -/
def readFraction (input : List Glyph) : Except JsonError (List Char × List Glyph) :=
  match input with
  | .scalar '.' :: rest =>
    match digitRun rest with
    | ([], _) => refuse "in numeric literal" rest
    | (digits, rest) => .ok (digits, rest)
  | _ => .ok ([], input)

/-- The exponent, if there is one. -/
def readExponent (input : List Glyph) : Except JsonError (Int × List Glyph) :=
  match input with
  | .scalar e :: rest =>
    if e = 'e' || e = 'E' then
      let (negative, rest) := match rest with
        | .scalar '-' :: rest => (true, rest)
        | .scalar '+' :: rest => (false, rest)
        | _ => (false, rest)
      match digitRun rest with
      | ([], _) => refuse "in numeric literal" rest
      | (digits, rest) =>
        let n : Int := (digitsValue? 10 digits).getD 0
        .ok (if negative then -n else n, rest)
    else .ok (0, input)
  | _ => .ok (0, input)

/-- A number, with its sign. -/
def readNumber (input : List Glyph) : Except JsonError (JsonNumber × List Glyph) := do
  let negative := input.head? = some (.scalar '-')
  let (whole, rest) ← readWhole (if negative then input.drop 1 else input)
  let (fraction, rest) ← readFraction rest
  let (exponent, rest) ← readExponent rest
  let n : JsonNumber :=
    { text := Glyph.text (input.take (input.length - rest.length))
      value := ⟨negative, (digitsValue? 10 (whole ++ fraction)).getD 0, exponent - fraction.length⟩ }
  return (n, rest)

/-! ## Texts -/

/-- The character of a short escape. -/
def shortEscape? (c : Char) : Option Char :=
  match c with
  | 'b' => some '\x08'
  | 'f' => some '\x0c'
  | 'n' => some '\n'
  | 'r' => some '\r'
  | 't' => some '\t'
  | '\\' => some '\\'
  | '/' => some '/'
  | '"' => some '"'
  | _ => none

/-- The code of an escape by four hexadecimal digits; they follow the backslash and a letter. An escape of
    six bytes is shown when it is bad, or what there is of it at the end of the text. -/
def readCode (input : List Glyph) : Except JsonError (Nat × List Glyph) :=
  let digits := (input.drop 2).take 4
  match hexCode? 4 (digits.map Glyph.char) with
  | some code => .ok (code, input.drop 6)
  | none =>
    if digits.length < 4 && digits.all fun g => digitValue g.char < 16 then .error .cut
    else .error (.badEscape ((Glyph.allBytes (input.take 6)).take 6))

/-- The character of a code escape. Two codes together may spell a character; a code that spells none
    by itself stands for the replacement character. -/
def readCodeChar (input : List Glyph) : Except JsonError (Char × List Glyph) := do
  let (high, rest) ← readCode input
  if 0xD800 ≤ high && high < 0xDC00 then
    match rest with
    | .scalar '\\' :: .scalar 'u' :: _ =>
      let (low, afterLow) ← readCode rest
      if 0xDC00 ≤ low && low < 0xE000 then
        return (Char.ofNat (0x10000 + (high - 0xD800) * 1024 + (low - 0xDC00)), afterLow)
      else return (replacementChar, rest)
    | _ => return (replacementChar, rest)
  else if 0xDC00 ≤ high && high < 0xE000 then return (replacementChar, rest)
  else return (Char.ofNat high, rest)

/-- The text up to its closing quote; `seen` holds what was read, last first. -/
def readTextFrom : Nat → List Char → List Glyph → Except JsonError (String × List Glyph)
  | 0, _, _ => .error .cut
  | _ + 1, _, [] => .error .cut
  | fuel + 1, seen, g :: rest =>
    if g.char = '"' then .ok (String.ofList seen.reverse, rest)
    else if g.char.toNat < 32 then refuse "in string" (g :: rest)
    else if g.char = '\\' then
      match rest with
      | [] => .error .cut
      | e :: after =>
        match shortEscape? e.char with
        | some c => readTextFrom fuel (c :: seen) after
        | none =>
          if e.char = 'u' then do
            let (c, after) ← readCodeChar (g :: rest)
            readTextFrom fuel (c :: seen) after
          else .error (.badEscape ((g.fileBytes ++ e.fileBytes).take 2))
    else readTextFrom fuel (g.char :: seen) rest

/-- The text after an opening quote. -/
def readText (input : List Glyph) : Except JsonError (String × List Glyph) :=
  readTextFrom (input.length + 1) [] input

/-! ## Values -/

/-- The rest of a word that spells a value. -/
def readWord (word : String) (value : Json) : List Char → List Glyph → Except JsonError (Json × List Glyph)
  | [], input => .ok (value, input)
  | c :: more, input =>
    if (input.head?.map Glyph.char) = some c then readWord word value more (input.drop 1)
    else refuse ("in literal " ++ word ++ " (expecting " ++ JsonError.glyphText (.scalar c) ++ ")") input

mutual

/-- A value at the head of a text. -/
def readValue : Nat → List Glyph → Except JsonError (Json × List Glyph)
  | 0, _ => .error .cut
  | fuel + 1, input =>
    match skipSpace input with
    | [] => .error .cut
    | g :: rest =>
      match g.char with
      | '\x7b' =>
        match skipSpace rest with
        | .scalar '\x7d' :: after => .ok (object [], after)
        | after => readFields fuel [] after
      | '[' =>
        match skipSpace rest with
        | .scalar ']' :: after => .ok (list [], after)
        | after => readItems fuel [] after
      | '"' => (readText rest).map fun r => (text r.1, r.2)
      | 't' => readWord "true" (truth true) ['r', 'u', 'e'] rest
      | 'f' => readWord "false" (truth false) ['a', 'l', 's', 'e'] rest
      | 'n' => readWord "null" null ['u', 'l', 'l'] rest
      | c =>
        if c = '-' || isDecimal c then (readNumber (g :: rest)).map fun r => (number r.1, r.2)
        else refuse "looking for beginning of value" (g :: rest)

/-- The items of a list up to its closing bracket. -/
def readItems : Nat → List Json → List Glyph → Except JsonError (Json × List Glyph)
  | 0, _, _ => .error .cut
  | fuel + 1, seen, input => do
    let (j, rest) ← readValue fuel input
    let seen := seen ++ [j]
    match skipSpace rest with
    | .scalar ',' :: after => readItems fuel seen after
    | .scalar ']' :: after => .ok (list seen, after)
    | after => refuse "after array element" after

/-- The fields of an object up to its closing brace. -/
def readFields : Nat → List (String × Json) → List Glyph → Except JsonError (Json × List Glyph)
  | 0, _, _ => .error .cut
  | fuel + 1, seen, input =>
    match skipSpace input with
    | .scalar '"' :: rest => do
      let (name, rest) ← readText rest
      match skipSpace rest with
      | .scalar ':' :: after =>
        let (j, rest) ← readValue fuel after
        let seen := seen ++ [(name, j)]
        match skipSpace rest with
        | .scalar ',' :: after => readFields fuel seen after
        | .scalar '\x7d' :: after => .ok (object seen, after)
        | after => refuse "after object key:value pair" after
      | after => refuse "after object key" after
    | after => refuse "looking for beginning of object key string" after

end

/-- The first value of a text. Every reader takes at least one character, so the length of the text is
    fuel enough. -/
def read (input : List Glyph) : Except JsonError Json :=
  if (skipSpace input).isEmpty then .error .empty
  else (readValue (2 * input.length + 2) input).map fun r => r.1

mutual

/-- The first number of a value that is out of range, and the path to it. -/
def outOfRange? : Json → Option (JsonNumber × List String)
  | number n => if n.value.binary?.isNone then some (n, []) else none
  | list items => outOfRangeItem? 0 items
  | object fields => outOfRangeField? fields
  | _ => none

/-- The same in a list, for its items from an index on. -/
def outOfRangeItem? (index : Nat) : List Json → Option (JsonNumber × List String)
  | [] => none
  | j :: rest =>
    match outOfRange? j with
    | some (n, path) => some (n, toString index :: path)
    | none => outOfRangeItem? (index + 1) rest

/-- The same among fields. -/
def outOfRangeField? : List (String × Json) → Option (JsonNumber × List String)
  | [] => none
  | (name, j) :: rest =>
    match outOfRange? j with
    | some (n, path) => some (n, name :: path)
    | none => outOfRangeField? rest

end

/-- The fields of the object that a text spells; no object has none. -/
def readObject (input : List Glyph) : Except JsonError (List (String × Json)) := do
  match ← read input with
  | object fields =>
    match outOfRangeField? fields with
    | some (n, path) => .error (.range n.text path)
    | none => return distinct fields
  | null => return []
  | j => .error (.mismatch j.kind "map[string]interface \x7b\x7d")

end Json

end LetterGrammar
