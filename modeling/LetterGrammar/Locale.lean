import LetterGrammar.Listing

/-!
# Languages of listings

A language is asked for by a tag, or by a list of tags in the order of preference.

## Contents

- **`Locale.tags`**: the available languages.
- **`Locale.labels`**: the labels for a request.
-/

namespace LetterGrammar
namespace Locale

/-- The tags of the available languages, in byte order. -/
def tags : List String := ["en-us", "pl"]

/-- The tag in use when none is asked for. -/
def defaultTag : String := "en-us"

/-- The labels for a single normalised tag. -/
def labelsOf? (tag : String) : Option Labels :=
  if tag = "en-us" || tag = "en" then some .english
  else if tag = "pl" then some .polish
  else none

/-- A sign between the tags of a list. -/
def isSeparator (c : Char) : Bool :=
  c = ',' || c = ';' || c = '.'

/-- White space around the tags of a list. -/
def isSpace (c : Char) : Bool :=
  c = ' ' || c.toNat = 0x85 || c.toNat = 0xA0 || c.toNat = 0x1680
    || (9 ≤ c.toNat && c.toNat ≤ 13) || (0x2000 ≤ c.toNat && c.toNat ≤ 0x200A)
    || c.toNat = 0x2028 || c.toNat = 0x2029 || c.toNat = 0x202F || c.toNat = 0x205F
    || c.toNat = 0x3000

/-- A text without the white space around it. -/
def trim (cs : List Char) : List Char :=
  ((cs.dropWhile isSpace).reverse.dropWhile isSpace).reverse

/-- The parts of a text between separators. -/
def splitParts : List Char → List (List Char)
  | [] => [[]]
  | c :: rest =>
    match splitParts rest with
    | [] => [[c]]
    | part :: parts => if isSeparator c then [] :: part :: parts else (c :: part) :: parts

/-- A tag in the form in which tags are compared: lower case, with hyphens. -/
def normalize (cs : List Char) : String :=
  String.ofList (cs.map fun c => if c = '_' then '-' else c.toLower)

/-- The tags of a request. A request with separators is a list, and its tags are trimmed. -/
def requested (request : String) : List String :=
  match splitParts request.toList with
  | [part] => [normalize part]
  | parts => parts.map fun part => normalize (trim part)

/-- The labels for a request; an empty request is one for the default language. -/
def labels (request : String) : Except Fault Labels :=
  let request := if request.isEmpty then defaultTag else request
  match (requested request).findSome? labelsOf? with
  | some l => .ok l
  | none =>
    .error (.plain ("unsupported language " ++ quote request
      ++ ": no supported languages found []string\x7b" ++ quote request ++ "\x7d"))

end Locale
end LetterGrammar
