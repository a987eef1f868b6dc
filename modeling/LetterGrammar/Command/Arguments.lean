import LetterGrammar.Command.Value

/-!
# Arguments

Arguments are read from left to right. A flag is known by its long name after two hyphens or by its
short name after one; it may carry its value (`--name=value`, `-nvalue`) or take the next argument as its
value. Switches by their short names can be written together. After `--` nothing is a flag. What is no
flag names the command, and after it the file.

## Contents

- **`Arguments`**: what was read.
- **`Refusal`**: a fault, with the command known by then.
- **`longFlag`**, **`shortFlags`**: one argument that holds flags.
- **`Arguments.read`**: all arguments.
-/

namespace LetterGrammar
namespace Command

/-- What was read from the arguments: the command, the file, and the flags in their order. -/
structure Arguments where
  verb : Option Verb
  file : Option String
  given : Values
deriving DecidableEq, Repr

/-- A fault of usage, and the command whose help is shown with it. -/
structure Refusal where
  verb : Option Verb
  fault : UsageFault

/-! ## Flags -/

/-- The flag with a spelling. -/
def findFlag (flags : List Flag) (given : String) : Except UsageFault Flag :=
  match flags.find? fun f => f.spellings.contains given with
  | some f => .ok f
  | none => .error (.unknownFlag given (nearWords given (flags.flatMap Flag.spellings)))

/-- The argument can be a value: it is no flag. -/
def canBeValue (arg : String) : Bool :=
  arg = "-" || !"-".isPrefixOf arg

/-- The value of a flag from the argument after it. -/
def nextValue (f : Flag) : Option String → Except UsageFault Value
  | none => .error (.noValue f)
  | some arg => if canBeValue arg then Value.ofText f arg else .error (.flagForValue f arg)

/-- The parts of a long flag: the name with its hyphens, and the value after the first equals sign. -/
def splitLong (arg : String) : String × Option String :=
  let name := arg.toList.takeWhile (· ≠ '=')
  match arg.toList.drop name.length with
  | [] => (arg, none)
  | _ :: value => (String.ofList name, some (String.ofList value))

/-- The flag of an argument with two hyphens. Says whether the next argument was its value. -/
def longFlag (flags : List Flag) (arg : String) (next : Option String) :
    Except UsageFault (Values × Bool) := do
  let (name, value?) := splitLong arg
  let f ← findFlag flags name
  match value?, f.kind with
  | some value, _ => return ([(f, ← Value.ofText f value)], false)
  | none, .switch => return ([(f, .switch true)], false)
  | none, _ => return ([(f, ← nextValue f next)], true)

/-- A short name is a single byte, so a character of more bytes is none. -/
def shortName (c : Char) : String :=
  "-" ++ String.singleton (if c.toNat < 128 then c else replacementChar)

/-- The flags of an argument with one hyphen, of which `letters` are left. A flag that takes a value
    takes the letters after it, or the next argument if there are none. -/
def shortFlags (flags : List Flag) (next : Option String) :
    List Char → Except UsageFault (Values × Bool)
  | [] => .ok ([], false)
  | c :: letters => do
    let f ← findFlag flags (shortName c)
    match f.kind with
    | .switch =>
      let (more, taken) ← shortFlags flags next letters
      return ((f, .switch true) :: more, taken)
    | _ =>
      if letters.isEmpty then return ([(f, ← nextValue f next)], true)
      else return ([(f, ← Value.ofText f (String.ofList letters))], false)

/-- The flags of an argument that starts with a hyphen. -/
def flagsOf (flags : List Flag) (arg : String) (next : Option String) :
    Except UsageFault (Values × Bool) :=
  if "--".isPrefixOf arg then longFlag flags arg next
  else shortFlags flags next (arg.toList.drop 1)

/-! ## All arguments -/

namespace Arguments

/-- Nothing read yet. -/
def none : Arguments := ⟨.none, .none, []⟩

/-- Takes an argument that is no flag: the command, then the file. -/
def place (a : Arguments) (arg : String) : Except Refusal Arguments :=
  match a.verb, a.file with
  | .none, _ =>
    match Verb.ofName? arg with
    | some v => .ok { a with verb := some v }
    | .none => .error ⟨.none, .unexpectedArgument arg (nearWords arg (Verb.all.map Verb.name))⟩
  | some _, .none => .ok { a with file := some arg }
  | some v, some _ => .error ⟨some v, .unexpectedArgument arg []⟩

/-- Takes the flags of an argument. -/
def take (a : Arguments) (arg : String) (next : Option String) : Except Refusal (Arguments × Bool) :=
  match flagsOf (Flag.available a.verb) arg next with
  | .error fault => .error ⟨a.verb, fault⟩
  | .ok (values, taken) => .ok ({ a with given := a.given ++ values }, taken)

/-- Reads the arguments that are left. -/
def readFrom (a : Arguments) : List String → Except Refusal Arguments
  | [] => .ok a
  | arg :: rest =>
    if arg = "--" then rest.foldlM place a
    else if canBeValue arg then (a.place arg).bind fun a => readFrom a rest
    else
      match a.take arg rest.head? with
      | .error r => .error r
      | .ok (a, taken) => readFrom a (if taken then rest.drop 1 else rest)
termination_by args => args.length
decreasing_by
  · simp
  · simp only [List.length_cons]
    split
    · simp only [List.length_drop]; omega
    · omega

/-- Reads all arguments. -/
def read (args : List String) : Except Refusal Arguments :=
  readFrom none args

end Arguments

end Command
end LetterGrammar
