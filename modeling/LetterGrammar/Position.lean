/-!
# Positions in a file

A position counts bytes from zero, and lines and columns from one. Columns count characters.

## Contents

- **`Position`**: a place in a named file.
- **`Position.describe`**: `file:line:column`, with a choice of what stands for a missing name.
-/

namespace LetterGrammar

/-- A place in a file. -/
structure Position where
  filename : String
  offset : Nat
  line : Nat
  column : Nat
deriving DecidableEq, Repr

namespace Position

/-- The first place of a file. -/
def start (filename : String) : Position := ⟨filename, 0, 1, 1⟩

/-- `line:column`. -/
def lineColumn (p : Position) : String :=
  toString p.line ++ ":" ++ toString p.column

/-- `file:line:column`, or `line:column` in a file without a name. -/
def describe (p : Position) : String :=
  if p.filename.isEmpty then p.lineColumn else p.filename ++ ":" ++ p.lineColumn

end Position

end LetterGrammar
