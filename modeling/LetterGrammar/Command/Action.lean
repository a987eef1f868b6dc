import LetterGrammar.Fault

/-!
# Actions

An action writes to the two outputs of a program and may fail; what was written before a failure stays
written.

## Contents

- **`Action`**: actions, a monad.
- **`print`**, **`warn`**, **`Action.fail`**: the basic actions.
- **`report`**: a message behind its leader, line by line.
- **`Outcome`**, **`Action.outcome`**: what a run of the program leaves behind.
-/

namespace LetterGrammar
namespace Command

/-- A computation that writes and may fail with a message. -/
structure Action (α : Type) where
  out : String
  err : String
  result : Except String α

namespace Action

/-- One action after another, if the first succeeds. -/
def andThen {α β : Type} (x : Action α) (f : α → Action β) : Action β :=
  match x.result with
  | .error e => ⟨x.out, x.err, .error e⟩
  | .ok a => ⟨x.out ++ (f a).out, x.err ++ (f a).err, (f a).result⟩

instance : Monad Action where
  pure a := ⟨"", "", .ok a⟩
  bind := andThen

/-- Fails with a message. -/
def fail {α : Type} (message : String) : Action α := ⟨"", "", .error message⟩

/-- Succeeds or fails as a computation did. -/
def ofFault {α : Type} : Except Fault α → Action α
  | .ok a => pure a
  | .error f => fail f.message

end Action

/-- Writes to standard output. -/
def print (text : String) : Action Unit := ⟨text, "", .ok ()⟩

/-- Writes to standard error. -/
def warn (text : String) : Action Unit := ⟨"", text, .ok ()⟩

/-- What a run of the program leaves behind: an exit code and the texts of both outputs. -/
structure Outcome where
  code : UInt8
  out : String
  err : String
deriving DecidableEq, Repr

/-- A message behind its leader, without the line breaks at its end. Further lines are indented as deep as
    the leader is long. -/
def report (leader message : String) : String :=
  let trimmed := (message.toList.reverse.dropWhile (· = '\n')).reverse
  let indented := ((String.ofList trimmed).splitOn "\n").intersperse
    ("\n" ++ String.ofList (List.replicate leader.length ' '))
  leader ++ String.join indented ++ "\n"

/-- The outcome of an action; the name of the program precedes the message of a failure. -/
def Action.outcome (program : String) (x : Action Unit) : Outcome :=
  match x.result with
  | .ok () => ⟨0, x.out, x.err⟩
  | .error message => ⟨1, x.out, x.err ++ report (program ++ ": error: ") message⟩

end Command
end LetterGrammar
