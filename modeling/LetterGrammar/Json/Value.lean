import LetterGrammar.Json.Number
import LetterGrammar.Text.ByteOrder
import LetterGrammar.Text.Quoted

/-!
# JSON values

## Contents

- **`Json`**: values; the fields of an object are in the order of their text.
- **`Json.distinct`**: the fields that count: of those with one name, the last.
- **`Json.kind`**, **`Json.typeName`**: the names of a value's kind in messages.
- **`Json.plain`**, **`Json.quoted`**, **`Json.spelled`**: the texts that show a value in messages.
-/

namespace LetterGrammar

/-- A JSON value. Of several fields with one name the last counts. -/
inductive Json
  | null
  | truth (b : Bool)
  | number (n : JsonNumber)
  | text (s : String)
  | list (items : List Json)
  | object (fields : List (String × Json))
deriving Repr

namespace Json

/-- The kind of a value, as JSON calls it. -/
def kind : Json → String
  | null => "null"
  | truth _ => "bool"
  | number _ => "number"
  | text _ => "string"
  | list _ => "array"
  | object _ => "object"

/-- The type of a value in messages about settings. -/
def typeName : Json → String
  | null => "<nil>"
  | truth _ => "bool"
  | number _ => "float64"
  | text _ => "string"
  | list _ => "[]interface \x7b\x7d"
  | object _ => "map[string]interface \x7b\x7d"

/-- The fields that count: of those with one name, the last. -/
def distinct {α : Type} : List (String × α) → List (String × α)
  | [] => []
  | e :: rest => if rest.any fun d => d.1 = e.1 then distinct rest else e :: distinct rest

/-- Shown entries that count, in the byte order of their names. -/
def inOrder (entries : List (String × String)) : List (String × String) :=
  (distinct entries).mergeSort fun a b => bytesLe a.1.toList b.1.toList

/-- The text of a truth value. -/
def truthText (b : Bool) : String :=
  if b then "true" else "false"

mutual

/-- The text that shows a value bare. -/
def plain : Json → String
  | null => "<nil>"
  | truth b => truthText b
  | number n => n.value.shown
  | text s => s
  | list items => "[" ++ String.intercalate " " (plainItems items) ++ "]"
  | object fields =>
    "map[" ++ String.intercalate " " ((inOrder (plainFields fields)).map fun e => e.1 ++ ":" ++ e.2) ++ "]"

/-- The bare texts of the items of a list. -/
def plainItems : List Json → List String
  | [] => []
  | j :: rest => plain j :: plainItems rest

/-- The bare texts of the fields of an object. -/
def plainFields : List (String × Json) → List (String × String)
  | [] => []
  | (name, j) :: rest => (name, plain j) :: plainFields rest

end

mutual

/-- The text that shows a value with its texts in quotes. -/
def quoted : Json → String
  | null => "<nil>"
  | truth b => "%!q(bool=" ++ truthText b ++ ")"
  | number n => "%!q(float64=" ++ n.value.shown ++ ")"
  | text s => quote s
  | list items => "[" ++ String.intercalate " " (quotedItems items) ++ "]"
  | object fields =>
    "map[" ++ String.intercalate " " ((inOrder (quotedFields fields)).map fun e => quote e.1 ++ ":" ++ e.2)
    ++ "]"

/-- The quoted texts of the items of a list. -/
def quotedItems : List Json → List String
  | [] => []
  | j :: rest => quoted j :: quotedItems rest

/-- The quoted texts of the fields of an object. -/
def quotedFields : List (String × Json) → List (String × String)
  | [] => []
  | (name, j) :: rest => (name, quoted j) :: quotedFields rest

end

mutual

/-- The text that shows a value with the types of its parts. -/
def spelled : Json → String
  | null => "interface \x7b\x7d(nil)"
  | truth b => truthText b
  | number n => n.value.shown
  | text s => quote s
  | list items => (list items).typeName ++ "\x7b" ++ String.intercalate ", " (spelledItems items) ++ "\x7d"
  | object fields =>
    (object fields).typeName ++ "\x7b"
    ++ String.intercalate ", " ((inOrder (spelledFields fields)).map fun e => quote e.1 ++ ":" ++ e.2)
    ++ "\x7d"

/-- The texts of the items of a list, with their types. -/
def spelledItems : List Json → List String
  | [] => []
  | j :: rest => spelled j :: spelledItems rest

/-- The texts of the fields of an object, with their types. -/
def spelledFields : List (String × Json) → List (String × String)
  | [] => []
  | (name, j) :: rest => (name, spelled j) :: spelledFields rest

end

end Json

end LetterGrammar
