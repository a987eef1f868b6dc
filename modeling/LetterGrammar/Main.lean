import LetterGrammar.Command.Run

/-!
# The program

The command line of the library: `run` on the file system.

## Contents

- **`main`**: the entry point.
-/

open LetterGrammar
open LetterGrammar.Command

namespace LetterGrammar
namespace Program

/-- The words of the system, which start with a small letter inside a message. -/
def systemWords (text : String) : String :=
  match text.toList with
  | [] => text
  | c :: rest => String.ofList (c.toLower :: rest)

/-- The code by which the system says that a name is too long. -/
def nameTooLong : UInt32 := 36

/-- The reason why the system refuses a file. A file that cannot be opened is named by the system; one
    that can be opened and not read is a folder. -/
def fileFault : IO.Error → FileFault
  | .noFileOrDirectory .. => .missing
  | .inappropriateType (some _) _ _ => .throughFile
  | .inappropriateType none _ _ => .folder
  | .permissionDenied _ _ details => .other (systemWords details)
  | .invalidArgument _ code details => if code = nameTooLong then .tooLong else .other (systemWords details)
  | e => .other (toString e)

/-- The text of a file. -/
def textOfFile (name : String) : IO (Except FileFault (List Glyph)) := do
  match nameFault? name with
  | some f => return .error f
  | none =>
    try
      return .ok (Glyph.ofBytes (← IO.FS.readBinFile name))
    catch e => return .error (fileFault e)

/-- The text of standard input. -/
def readInput : IO (List Glyph) := do
  return Glyph.ofBytes (← (← IO.getStdin).readBinToEnd)

/-- The file system, the standard input and the environment of the process. -/
def world : IO (World IO) := do
  return {
    textOf := textOfFile
    inputText := readInput
    folder := (← IO.currentDir).toString
    home := (← IO.getEnv "HOME").getD "/"
    language := ← IO.getEnv "GRAMATYKA_LANG" }

end Program
end LetterGrammar

/-- Runs the program with the arguments of the process. -/
def main (args : List String) : IO UInt32 := do
  let outcome ← run (← Program.world) args
  IO.eprint outcome.err
  IO.print outcome.out
  return outcome.code.toUInt32
