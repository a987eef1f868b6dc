import LetterGrammar.Command.Arguments
import LetterGrammar.Command.Settings
import LetterGrammar.Form

/-!
# Invocations

An invocation is what the program is told to do, with every flag decided: by the arguments, else by the
settings file, else by the environment, else by its default.

## Contents

- **`OutputFormat`**: the formats of converted grammars.
- **`Job`**: a command with its flags.
- **`Invocation`**, **`Invocation.ofArguments`**: the job, the file, and the flags of all commands.
-/

namespace LetterGrammar
namespace Command

/-- The formats in which a converted grammar is printed. -/
inductive OutputFormat
  | listing
  | native
  | ebnf
  | yaml
  | toml
deriving DecidableEq, Repr

/-- The format with a name. -/
def OutputFormat.ofName? : String → Option OutputFormat
  | "listing" => some listing
  | "native" => some native
  | "ebnf" => some ebnf
  | "yaml" => some yaml
  | "toml" => some toml
  | _ => none

/-- The form with a name on the command line; to require none is to require what every grammar has. -/
def requirement? : String → Option Form
  | "none" => some .contextFree
  | "regular" => some .regular
  | "chomsky" => some .chomsky
  | "greibach" => some .greibach
  | _ => none

/-- A command with its flags. -/
inductive Job
  | check (required : Form)
  | convert (traced verified : Bool) (format : OutputFormat)
  | words (maxLen : Int) (sample : Int) (depth : Int) (seed : Int)
  | ebnf (verified : Bool)
deriving DecidableEq, Repr

/-- What the program is told to do. -/
structure Invocation where
  job : Job
  file : String
  lang : String
  dump : Bool
deriving DecidableEq, Repr

/-- The choice that a flag makes. -/
def choose {α : Type} (f : Flag) (vs : Values) (default : String) (ofName? : String → Option α) :
    Except UsageFault α :=
  match ofName? (vs.text f default) with
  | some a => .ok a
  | none => .error (.notChoice f (vs.text f default))

/-- The job of a command under the given values. -/
def Job.ofValues (vs : Values) : Verb → Except UsageFault Job
  | .check => do return .check (← choose .require vs "none" requirement?)
  | .convert => do
    return .convert (vs.switch .trace) (vs.switch .verify)
      (← choose .format vs "listing" OutputFormat.ofName?)
  | .words => .ok (.words (vs.whole .maxLen 5) (vs.whole .sample 0) (vs.whole .depth 8) (vs.whole .seed 1))
  | .ebnf => .ok (.ebnf (vs.switch .verify))

/-- The name that stands for standard input. -/
def standardInput : String := "-"

/-- The invocation of arguments, for the fields of a settings file and the language of the
    environment. -/
def Invocation.ofArguments (a : Arguments) (fields : List (String × Json)) (environment : Option String) :
    Except UsageFault Invocation := do
  let configured ← settings fields (Flag.available a.verb) a.given
  let vs : Values := a.given.reverse ++ configured
    ++ (environment.toList.map fun s => (Flag.lang, Value.text s))
  match a.verb with
  | none => .error .noCommand
  | some verb =>
    return {
      job := ← Job.ofValues vs verb
      file := a.file.getD standardInput
      lang := vs.text .lang "en-us"
      dump := vs.switch .dump }

end Command
end LetterGrammar
