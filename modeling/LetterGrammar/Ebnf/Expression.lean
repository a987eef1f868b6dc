import LetterGrammar.Position
import LetterGrammar.Text.Glyph

/-!
# EBNF expressions

## Contents

- **`Expression`**: the right side of an EBNF production.
- **`Production`**: a named expression.
- **`Walk`**: an order in which the productions of a text are met.
- **`Expression.names`**: the names an expression refers to, with their places.
-/

namespace LetterGrammar
namespace Ebnf

/-- The right side of a production. Places are kept where a message may need them. -/
inductive Expression
  /-- No expression at all. -/
  | nothing
  /-- One of several expressions. -/
  | alternative (members : List Expression)
  /-- Several expressions one after another. -/
  | sequence (members : List Expression)
  /-- An expression in round brackets. -/
  | group (body : Expression)
  /-- An expression in square brackets, which may be left out. -/
  | option (body : Expression)
  /-- An expression in braces, which may be repeated. -/
  | repetition (place : Position) (body : Expression)
  /-- The name of a production. -/
  | name (place : Position) (text : String)
  /-- A literal, by its value. -/
  | token (place : Position) (value : List Glyph)
  /-- All characters from one literal to another. -/
  | range (place : Position)
  /-- What was no expression. -/
  | bad (place : Position)
deriving Repr

/-- A production: the place and the text of its name, and its expression. -/
structure Production where
  place : Position
  name : String
  body : Expression
deriving Repr

/-- An order in which the productions of a text are met. Productions are kept by their names, and a walk
    through them may take any order. -/
structure Walk where
  order : List Production → List Production
  perm : ∀ ps, (order ps).Perm ps

/-- The walk in the order in which productions are listed. -/
def Walk.asListed : Walk := ⟨id, fun ps => .refl ps⟩

mutual

/-- The names in an expression, with their places, in the order of the text. -/
def Expression.names : Expression → List (Position × String)
  | .alternative members => namesOfAll members
  | .sequence members => namesOfAll members
  | .group body => body.names
  | .option body => body.names
  | .repetition _ body => body.names
  | .name place text => [(place, text)]
  | .nothing => []
  | .token _ _ => []
  | .range _ => []
  | .bad _ => []

/-- The names in a list of expressions. -/
def namesOfAll : List Expression → List (Position × String)
  | [] => []
  | e :: rest => e.names ++ namesOfAll rest

end

end Ebnf
end LetterGrammar
