/-!
# TOML values

A TOML text is a table: names with values, which may be tables again. Only texts matter to a grammar, so
all other simple values are alike. A table in braces is closed: nothing can be added to it later.

## Contents

- **`Value`**, **`Table`**: the values.
- **`Table.within?`**: a change of the table under a path of names.
- **`Table.put`**: a value under a path of names, in place of an earlier one.
- **`Table.assign?`**: a new name with a value.
- **`Table.openTable?`**, **`Table.openElement?`**: the effect of a header.
-/

namespace LetterGrammar
namespace Toml

/-- A value of a TOML text. -/
inductive Value
  | text (s : String)
  /-- A number, a date or a truth value. -/
  | other
  | array (members : List Value)
  | table (entries : List (String × Value)) (closed : Bool)
  /-- A list of tables, given by its last member. -/
  | tables (last : List (String × Value)) (closed : Bool)
deriving Repr

/-- Names with values, each name once. -/
abbrev Table := List (String × Value)

namespace Table

/-- The table with the value of a name replaced or added. -/
def set (t : Table) (name : String) (v : Value) : Table :=
  if (t.lookup name).isSome then t.map fun e => if e.1 = name then (name, v) else e
  else t ++ [(name, v)]

/-- Changes the table under a path of names, of which `f` gets to know whether it is closed. Tables that
    are missing on the way are added, closed if they are inside of a closed one. Fails if the path leads
    through something that is no table. -/
def within? (f : Table → Bool → Option Table) : List String → Table → Bool → Option Table
  | [], t, closed => f t closed
  | name :: path, t, closed =>
    match t.lookup name with
    | none => (within? f path [] closed).map fun s => t.set name (.table s closed)
    | some (.table s c) => (within? f path s c).map fun s => t.set name (.table s c)
    | some (.tables s c) => (within? f path s c).map fun s => t.set name (.tables s c)
    | some _ => none

/-- The value under a path of names. -/
def find? : List String → Table → Option Value
  | [], _ => none
  | [name], t => t.lookup name
  | name :: path, t =>
    match t.lookup name with
    | some (.table s _) => find? path s
    | some (.tables s _) => find? path s
    | _ => none

/-- The table with a value under a path of names, in place of an earlier one. A name on the way that has
    a simple value is passed over. -/
def put : List String → Value → Table → Table
  | [], _, t => t
  | [name], v, t => t.set name v
  | name :: path, v, t =>
    match t.lookup name with
    | none => t.set name (.table (put path v []) false)
    | some (.table s c) => t.set name (.table (put path v s) c)
    | some (.tables s c) => t.set name (.tables (put path v s) c)
    | some _ => put path v t

/-- The table with a new name and its value under a path of names. Fails if the name is known already, or
    if the table it belongs to is closed. -/
def assign? (path : List String) (name : String) (v : Value) (t : Table) : Option Table :=
  within? (fun s closed => if closed || (s.lookup name).isSome then none else some (s.set name v))
    path t false

/-- The table with a table under a path of names, added if it is missing. Fails if it is closed. -/
def openTable? (path : List String) (t : Table) : Option Table :=
  let opened (name : String) (s : Table) (closed : Bool) : Option Table :=
    match s.lookup name with
    | none => if closed then none else some (s.set name (.table [] false))
    | some (.table _ true) => none
    | some (.table _ false) => some s
    | some (.tables _ _) => some s
    | some _ => none
  path.getLast?.bind fun name => within? (opened name) path.dropLast t false

/-- The table with one more member of the list of tables under a path of names. Fails if there is
    something else already. -/
def openElement? (path : List String) (t : Table) : Option Table :=
  let t := (within? (fun s _ => some s) path.dropLast t false).getD t
  match find? path t with
  | none => some (put path (.tables [] false) t)
  | some (.tables _ _) => some (put path (.tables [] false) t)
  | some _ => none

end Table

end Toml
end LetterGrammar
