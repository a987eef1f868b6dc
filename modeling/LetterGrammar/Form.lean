/-!
# Forms and linearity

The normal forms a grammar is tested for, and the orientation of its two-symbol bodies.

## Contents

- **`Form`**, **`Linearity`**: the classes, their names and their numbers.
-/

namespace LetterGrammar

/-- A form a grammar may have. Every grammar is context-free. -/
inductive Form
  | contextFree
  | regular
  | chomsky
  | greibach
deriving DecidableEq, Repr

namespace Form

/-- The name of a form. -/
def name : Form → String
  | contextFree => "context-free"
  | regular => "regular"
  | chomsky => "Chomsky"
  | greibach => "Greibach"

/-- The form with a number; a number that names none stands for the weakest form. -/
def ofNumber : Int → Form
  | 1 => regular
  | 2 => chomsky
  | 3 => greibach
  | _ => contextFree

end Form

/-- The orientation of the bodies that pair a terminal with a nonterminal. -/
inductive Linearity
  /-- There is no such body. -/
  | none
  /-- In all of them the terminal comes first. -/
  | right
  /-- In all of them the nonterminal comes first. -/
  | left
  /-- Both orientations occur. -/
  | mixed
deriving DecidableEq, Repr

namespace Linearity

/-- The name of an orientation. -/
def name : Linearity → String
  | none => "none"
  | right => "right-linear"
  | left => "left-linear"
  | mixed => "mixed"

/-- The orientation with a number; a number that names none stands for no orientation. -/
def ofNumber : Int → Linearity
  | 1 => right
  | 2 => left
  | 3 => mixed
  | _ => none

end Linearity

end LetterGrammar
