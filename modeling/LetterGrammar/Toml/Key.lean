import LetterGrammar.Toml.Literal

/-!
# Keys in TOML

A key is a path of names with dots between them. It is cut out of the text first, its escapes resolved
and its quotes kept, and split into names then. A name in quotes need not be followed by a dot.

## Contents

- **`keyFrom?`**: the key at the head of a text, as it is kept.
- **`keyPath?`**: the names of a key.
-/

namespace LetterGrammar
namespace Toml

/-- The key at the head of a text, up to an equals sign or to blanks after which no dot follows. -/
def keyFrom? : Nat → List Char → Option (List Char × List Char)
  | 0, _ => none
  | _ + 1, [] => some ([], [])
  | fuel + 1, c :: rest =>
    let more (head rest : List Char) : Option (List Char × List Char) :=
      (keyFrom? fuel rest).map fun r => (head ++ r.1, r.2)
    if c = '=' then some ([], c :: rest)
    else if c = '"' then (basic? ['"'] true rest).bind fun r => more ('"' :: r.1 ++ ['"']) r.2
    else if c = '\'' then (literalFrom? ['\''] rest).bind fun r => more ('\'' :: r.1 ++ ['\'']) r.2
    else if isSpace c then
      match skipSpaces rest with
      | '.' :: after => more (' ' :: '.' :: after.takeWhile isSpace) (skipSpaces after)
      | after => some ([], after)
    else if c = '.' || isNameChar c then more [c] rest
    else none

/-- The names of a key. A dot must be followed by a name or a space. -/
def namesFrom? : Nat → List Char → Option (List String)
  | 0, _ => none
  | fuel + 1, key =>
    match skipSpaces key with
    | [] => some []
    | c :: rest =>
      if isNameChar c then
        let name := (c :: rest).takeWhile isNameChar
        let after := (c :: rest).drop name.length
        match skipSpaces after with
        | [] => some [String.ofList name]
        | '.' :: more => (namesFrom? fuel ('.' :: more)).map (String.ofList name :: ·)
        | _ => none
      else if c = '"' || c = '\'' then
        let name := rest.takeWhile (· ≠ c)
        match rest.drop name.length with
        | [] => none
        | _ :: more => (namesFrom? fuel more).map (String.ofList name :: ·)
      else if c = '.' then
        match rest with
        | d :: _ =>
          if isNameChar d || d = '"' || d = '\'' || d = ' ' then namesFrom? fuel rest else none
        | [] => none
      else none

/-- The names of a key, of which there is at least one. -/
def keyPath? (key : List Char) : Option (List String) :=
  (namesFrom? (key.length + 1) key).filter fun names => !names.isEmpty

end Toml
end LetterGrammar
