import LetterGrammar.Command.Usage
import LetterGrammar.Locale

/-!
# Variables

The name of a settings file may hold variables: a name between braces after a dollar sign, with a default
after an equals sign where the variable may be unknown. Two dollar signs stand for one. What looks like a
variable and is none stays as it is.

## Contents

- **`knownValue?`**: the value of a variable.
- **`Reference`**, **`Reference.read?`**: a variable as written.
- **`fillIn`**: a text with its variables replaced.
-/

namespace LetterGrammar
namespace Command

/-- The value of a variable. -/
def knownValue? (name : String) : Option String :=
  match name with
  | "version" => some programVersion
  | "languages" => some (String.intercalate ", " Locale.tags)
  | _ => none

/-- A variable as written, with its default. -/
structure Reference where
  name : String
  default : Option String
deriving DecidableEq, Repr

namespace Reference

/-- The first character of the name of a variable. -/
def isNameStart (c : Char) : Bool :=
  c.isAlpha || c = '_'

/-- A further character of the name of a variable. -/
def isNamePart (c : Char) : Bool :=
  c.isAlphanum || c = '_'

/-- The variable between braces; a default must not be empty. -/
def ofInside? (inside : List Char) : Option Reference :=
  let name := inside.takeWhile isNamePart
  if !(name.head?.map isNameStart).getD false then none
  else
    match inside.drop name.length with
    | [] => some ⟨String.ofList name, none⟩
    | '=' :: c :: rest => some ⟨String.ofList name, some (String.ofList (c :: rest))⟩
    | _ => none

/-- The variable at the head of a text behind a dollar sign, and the number of characters it takes. -/
def read? : List Char → Option (Reference × Nat)
  | '\x7b' :: text =>
    let inside := text.takeWhile (· ≠ '\x7d')
    if inside.length < text.length then (ofInside? inside).map fun r => (r, inside.length + 2) else none
  | _ => none

/-- The value of a variable, or its default. -/
def value (r : Reference) : Except UsageFault String :=
  match (knownValue? r.name).or r.default with
  | some s => .ok s
  | none => .error (.unknownVariable r.name)

end Reference

/-- A text with its variables replaced; `skip` characters belong to what was replaced before. -/
def fillInFrom (skip : Nat) : List Char → Except UsageFault (List Char)
  | [] => .ok []
  | c :: rest =>
    match skip with
    | n + 1 => fillInFrom n rest
    | 0 =>
      if c ≠ '$' then do return c :: (← fillInFrom 0 rest)
      else if rest.head? = some '$' then do return '$' :: (← fillInFrom 1 rest)
      else
        match Reference.read? rest with
        | none => do return '$' :: (← fillInFrom 0 rest)
        | some (r, n) => do
          let value ← r.value
          return value.toList ++ (← fillInFrom n rest)

/-- A text with its variables replaced. -/
def fillIn (text : String) : Except UsageFault String :=
  (fillInFrom 0 text.toList).map String.ofList

end Command
end LetterGrammar
