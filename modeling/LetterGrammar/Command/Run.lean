import LetterGrammar.Command.Execution
import LetterGrammar.Command.Folder
import LetterGrammar.Command.Help
import LetterGrammar.Command.Variable

/-!
# Runs of the program

A run reads the arguments, then the settings file if one is named, then the file of the grammar. How files
are read is left open, so that a run can be followed on a folder that is data as well as on a file system.

## Contents

- **`World`**: what a run needs from outside.
- **`Arguments.request?`**: help or version, asked for in place of a command.
- **`run`**: the outcome of a run.
-/

namespace LetterGrammar
namespace Command

/-- What a run needs from outside: the text of a file by its name or of standard input, the folder that
    names start from, the home folder, and the language that the environment asks for. -/
structure World (m : Type → Type) where
  textOf : String → m (Except FileFault (List Glyph))
  inputText : m (List Glyph)
  folder : String
  home : String
  language : Option String

/-- The outcome of a refused run: help, and the fault. -/
def Refusal.outcome (r : Refusal) : Outcome :=
  Action.outcome programName do
    print (help r.verb ++ "\n")
    Action.fail r.fault.message

/-- The text printed in place of a command: that of the first flag asking for help or version. -/
def Arguments.request? (a : Arguments) : Option String :=
  a.given.findSome? fun e =>
    match e.1 with
    | .help => some (help a.verb)
    | .version => some (programVersion ++ "\n")
    | _ => Option.none

/-- The settings file named last. -/
def Arguments.settingsFile? (a : Arguments) : Option String :=
  a.given.reverse.findSome? fun e =>
    match e with
    | (.config, .text name) => some name
    | _ => Option.none

variable {m : Type → Type} [Monad m]

/-- The fields of the settings file, if one is named. -/
def World.settings (w : World m) (a : Arguments) : m (Except UsageFault (List (String × Json))) := do
  match a.settingsFile? with
  | none => return .ok []
  | some name =>
    match fillIn (absolutePath w.folder w.home name) with
    | .error fault => return .error fault
    | .ok path =>
      match ← w.textOf path with
      | .error f => return .error (.noSettings (f.message path))
      | .ok text => return (Json.readObject text).mapError UsageFault.notSettings

/-- The text of the file of an invocation. -/
def World.text (w : World m) (i : Invocation) : m (Except String (List Glyph)) := do
  if i.file = standardInput then return .ok (← w.inputText)
  else return (← w.textOf i.file).mapError fun f => f.message i.file

/-- The outcome of an invocation. -/
def World.perform (w : World m) (i : Invocation) : m Outcome := do
  match ← w.text i with
  | .error message => return Action.outcome programName (Action.fail message)
  | .ok text => return Action.outcome programName (i.execute text)

/-- The outcome of a run with the given arguments. -/
def run (w : World m) (args : List String) : m Outcome := do
  match Arguments.read args with
  | .error r => return r.outcome
  | .ok a =>
    match a.request? with
    | some text => return Action.outcome programName (print text)
    | none =>
      match (← w.settings a).bind fun fields => Invocation.ofArguments a fields w.language with
      | .error fault => return Refusal.outcome ⟨a.verb, fault⟩
      | .ok i => w.perform i

end Command
end LetterGrammar
