import LetterGrammar.Text.Armor
import LetterGrammar.Text.Calendar
import LetterGrammar.Text.Decimal
import LetterGrammar.Text.Glyph
import LetterGrammar.Text.Integer

/-!
# What YAML scalars mean

A plain scalar may stand for nothing, for a truth value, a number or a point in time. A tag can ask for one
of these, and a scalar that is not of the kind asked for is refused. Where a text belongs, every scalar
reads as its text, only nothing as the empty text.

## Contents

- **`ScalarKind`**, **`scalarKind`**: the kind of a scalar by its text.
- **`isTimestamp`**: the spellings of a point in time.
- **`Meaning`**, **`meaning?`**: what a scalar means by its text and its tag.
-/

namespace LetterGrammar
namespace Yaml

/-! ## Points in time -/

/-- A number of one or two digits. -/
def shortNumber? : List Char → Option (Nat × List Char)
  | a :: b :: rest =>
    if isDecimal a && isDecimal b then some (digitValue a * 10 + digitValue b, rest)
    else if isDecimal a then some (digitValue a, b :: rest)
    else none
  | [a] => if isDecimal a then some (digitValue a, []) else none
  | [] => none

/-- A number of one or two digits after a sign. -/
def numberAfter? (sign : Char) : List Char → Option (Nat × List Char)
  | c :: rest => if c = sign then shortNumber? rest else none
  | [] => none

/-- A date at the head of a text: four digits and two short numbers. -/
def dateFrom? (text : List Char) : Option (List Char) := do
  let year := text.take 4
  if year.length < 4 || !year.all isDecimal then none
  let (month, rest) ← numberAfter? '-' (text.drop 4)
  let (day, rest) ← numberAfter? '-' rest
  if dateExists ((digitsValue? 10 year).getD 0) month day then some rest else none

/-- The text after the fraction of a second, which may be missing. -/
def skipFraction : List Char → List Char
  | c :: d :: rest =>
    if (c = '.' || c = ',') && isDecimal d then rest.dropWhile isDecimal else c :: d :: rest
  | text => text

/-- A time of day at the head of a text: three short numbers. -/
def timeFrom? (text : List Char) : Option (List Char) := do
  let (hour, rest) ← shortNumber? text
  let (minute, rest) ← numberAfter? ':' rest
  let (second, rest) ← numberAfter? ':' rest
  if timeExists hour minute second then some (skipFraction rest) else none

/-- The text is the offset of a time zone. -/
def isZone : List Char → Bool
  | ['Z'] => true
  | [sign, a, b, ':', c, d] =>
    (sign = '+' || sign = '-') && [a, b, c, d].all isDecimal
      && offsetExists (digitValue a * 10 + digitValue b) (digitValue c * 10 + digitValue d)
  | _ => false

/-- The text spells a point in time: a date, a date and a time after blanks, or a date and a time with a
    time zone after a letter. -/
def isTimestamp (text : List Char) : Bool :=
  match dateFrom? text with
  | none => false
  | some [] => true
  | some (c :: rest) =>
    if c = 'T' || c = 't' then ((timeFrom? rest).map isZone).getD false
    else if c = ' ' then ((timeFrom? (rest.dropWhile (· = ' '))).map List.isEmpty).getD false
    else false

/-! ## Kinds -/

/-- What a plain scalar can stand for. -/
inductive ScalarKind
  | nothing
  | truth
  /-- An integer of 64 bits with a sign. -/
  | integer
  /-- A larger integer of 64 bits without one. -/
  | largeInteger
  | fraction
  | timestamp
  | text
deriving DecidableEq, Repr

/-- The words that stand for something else than a text. -/
def words : List (ScalarKind × List String) := [
  (.truth, ["y", "Y", "yes", "Yes", "YES", "true", "True", "TRUE", "on", "On", "ON",
    "n", "N", "no", "No", "NO", "false", "False", "FALSE", "off", "Off", "OFF"]),
  (.nothing, ["", "~", "null", "Null", "NULL"]),
  (.fraction, [".nan", ".NaN", ".NAN", ".inf", ".Inf", ".INF", "+.inf", "+.Inf", "+.INF",
    "-.inf", "-.Inf", "-.INF"])]

/-- The text is an integer of 64 bits. A sign may also follow the lead for base two. -/
def isInteger (text : List Char) : Bool :=
  let fits (n : Option Int) : Bool := (n.map fitsWord).getD false
  fits (readByLead? text) || (text.take 2 = ['0', 'b'] && fits (readInBase? 2 (text.drop 2)))

/-- The text is an integer of 64 bits without a sign. -/
def isUnsigned (text : List Char) : Bool :=
  text.head? ≠ some '-' && text.head? ≠ some '+' && ((readByLead? text).map fitsUnsignedWord).getD false

/-- The text is a number in floating-point range. -/
def isFloating (text : List Char) : Bool :=
  ((Decimal.read? text).bind Decimal.binary?).isSome

/-- The text is a fraction: a point has digits after it, and an exponent a sign. -/
def isFraction (text : List Char) : Bool :=
  let exponent := text.dropWhile fun c => c ≠ 'e' && c ≠ 'E'
  let mantissa := text.take (text.length - exponent.length)
  let signed := match exponent with
    | [] => true
    | _ :: sign :: _ => sign = '+' || sign = '-'
    | _ => false
  signed && mantissa.getLast? ≠ some '.' && isFloating text

/-- The kind of a scalar by its text. Only with `time` it may be a point in time. -/
def scalarKind (time : Bool) (s : String) : ScalarKind :=
  match words.find? fun w => w.2.contains s with
  | some w => w.1
  | none =>
    let text := s.toList
    let digits := text.filter (· ≠ '_')
    match text.head? with
    | none => .nothing
    | some c =>
      if c = '.' then
        if separatorsFit isDecimal '.' text && isFloating digits then .fraction else .text
      else if isDecimal c || c = '+' || c = '-' then
        if time && isTimestamp text then .timestamp
        else if isInteger digits then .integer
        else if isUnsigned digits then .largeInteger
        else if isFraction digits then .fraction
        else .text
      else .text

/-! ## Meanings -/

/-- What a scalar means where a text or nothing is expected. -/
inductive Meaning
  | nothing
  | text (t : List Glyph)
deriving DecidableEq, Repr

/-- The full tag of a kind of values that every YAML text knows. -/
def coreTag (name : String) : String := "tag:yaml.org,2002:" ++ name

/-- The kinds of scalars that a tag asks for. An integer with a sign is a fraction, too. -/
def kindsOfTag? (tag : String) : Option (List ScalarKind) :=
  if tag = coreTag "null" then some [.nothing]
  else if tag = coreTag "bool" then some [.truth]
  else if tag = coreTag "int" then some [.integer, .largeInteger]
  else if tag = coreTag "float" then some [.fraction, .integer]
  else if tag = coreTag "timestamp" then some [.timestamp]
  else none

/-- The meaning of a text of a known kind. -/
def kindMeaning (kind : ScalarKind) (s : String) : Meaning :=
  if kind = .nothing then .nothing else .text (Glyph.ofString s)

/-- What a scalar means. Fails if it is not of the kind that its tag asks for. -/
def meaning? (s : String) (tag : String) (plain : Bool) : Option Meaning :=
  if tag.isEmpty then
    some (if plain then kindMeaning (scalarKind true s) s else .text (Glyph.ofString s))
  else if tag = coreTag "binary" then (unarmor? s.toList).map fun bytes => .text (Glyph.decode bytes)
  else
    match kindsOfTag? tag with
    | none => some (.text (Glyph.ofString s))
    | some kinds =>
      let kind := scalarKind (tag = coreTag "timestamp") s
      if kinds.contains kind then some (kindMeaning kind s) else none

end Yaml
end LetterGrammar
