import LetterGrammar.Text.Calendar
import LetterGrammar.Text.Digit

/-!
# Dates and times in TOML

A date is written `2006-01-02`, a time of day `15:04:05` with any number of digits after a point, and the
offset of a time zone `Z`, `+07:00` or `-07:00`. What is written like one of them must also exist in the
calendar.

## Contents

- **`dateFrom?`**, **`timeFrom?`**, **`offsetFrom?`**: a date, a time or an offset at the head of a text.
- **`isDate`**, **`isTime`**, **`isOffset`**: it exists.
-/

namespace LetterGrammar
namespace Toml

/-- The text fits the pattern, in which a zero stands for any digit. -/
def fitsPattern : List Char → List Char → Bool
  | [], _ => true
  | '0' :: pattern, c :: text => isDecimal c && fitsPattern pattern text
  | p :: pattern, c :: text => p = c && fitsPattern pattern text
  | _ :: _, [] => false

/-- The head of a text that fits a pattern, and the rest. -/
def patternFrom? (pattern : String) (text : List Char) : Option (List Char × List Char) :=
  if fitsPattern pattern.toList text then some (text.take pattern.length, text.drop pattern.length)
  else none

/-- A date at the head of a text. -/
def dateFrom? (text : List Char) : Option (List Char × List Char) :=
  patternFrom? "0000-00-00" text

/-- A time at the head of a text. -/
def timeFrom? (text : List Char) : Option (List Char × List Char) :=
  match patternFrom? "00:00:00" text with
  | none => none
  | some (time, '.' :: rest) =>
    let fraction := rest.takeWhile isDecimal
    if fraction.isEmpty then none else some (time ++ '.' :: fraction, rest.drop fraction.length)
  | some r => some r

/-- An offset at the head of a text, if there is one; it fails behind a sign that starts none. -/
def offsetFrom? (text : List Char) : Option (Option (List Char) × List Char) :=
  match text with
  | 'Z' :: rest => some (some ['Z'], rest)
  | '+' :: _ => (patternFrom? "+00:00" text).map fun r => (some r.1, r.2)
  | '-' :: _ => (patternFrom? "-00:00" text).map fun r => (some r.1, r.2)
  | _ => some (none, text)

/-! ## Existence -/

/-- The number at a place of a date or time. -/
def numberAt (text : List Char) (start length : Nat) : Nat :=
  (digitsValue? 10 ((text.drop start).take length)).getD 0

/-- The date exists. -/
def isDate (text : List Char) : Bool :=
  dateExists (numberAt text 0 4) (numberAt text 5 2) (numberAt text 8 2)

/-- The time exists. -/
def isTime (text : List Char) : Bool :=
  timeExists (numberAt text 0 2) (numberAt text 3 2) (numberAt text 6 2)

/-- The offset exists. -/
def isOffset (text : List Char) : Bool :=
  offsetExists (numberAt text 1 2) (numberAt text 4 2)

end Toml
end LetterGrammar
