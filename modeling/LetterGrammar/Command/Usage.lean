import LetterGrammar.Command.Flag
import LetterGrammar.Json.Reader
import LetterGrammar.Text.Distance
import LetterGrammar.Text.Quoted

/-!
# Faults of usage

What can be wrong with the arguments, as data, and how it is worded. A misspelled word is answered with
the known words that are near it.

## Contents

- **`nearWords`**: the known words near a given one.
- **`UsageFault`**, **`UsageFault.message`**: the faults and their wording.
-/

namespace LetterGrammar
namespace Command

/-- The known words that start with the given one or are at most two edits away from it. -/
def nearWords (given : String) (known : List String) : List String :=
  known.filter fun w =>
    given.toList.isPrefixOf w.toList || editDistance w.toList given.toList ≤ 2

/-- What is wrong with the arguments or with the settings file. -/
inductive UsageFault
  /-- There is no such flag. -/
  | unknownFlag (given : String) (near : List String)
  /-- There is no place for an argument. -/
  | unexpectedArgument (given : String) (near : List String)
  /-- The arguments end where a value should follow. -/
  | noValue (f : Flag)
  /-- A flag stands where a value should follow. -/
  | flagForValue (f : Flag) (given : String)
  /-- The value is no integer of 64 bits. -/
  | notWhole (f : Flag) (given : String)
  /-- The value means neither on nor off. -/
  | notTruth (f : Flag) (given : String)
  /-- The value is not among the choices. -/
  | notChoice (f : Flag) (given : String)
  /-- The settings file has a value of the wrong kind. -/
  | wrongSetting (f : Flag) (value : Json)
  /-- The settings file is no JSON object. -/
  | notSettings (error : JsonError)
  /-- The name of the settings file holds a variable without a value. -/
  | unknownVariable (name : String)
  /-- The settings file cannot be read. -/
  | noSettings (text : String)
  /-- No command is given. -/
  | noCommand
deriving Repr

namespace UsageFault

/-- The hint at near words. -/
def hint : List String → String
  | [] => ""
  | [w] => ", did you mean " ++ quote w ++ "?"
  | ws => ", did you mean one of " ++ String.intercalate ", " (ws.map quote) ++ "?"

/-- The kind of value a flag takes, in messages. -/
def kindText : FlagKind → String
  | .switch => "bool"
  | .text => "string"
  | .whole => "int"

/-- What a flag expects instead of what was given. -/
def expected (f : Flag) (given : String) : String :=
  f.long ++ ": expected " ++ kindText f.kind ++ " value but got " ++ given

/-- The kind of flag that stands in the place of a value. -/
def flagText (given : String) : String :=
  if "--".isPrefixOf given then "long flag" else "short flag"

/-- The wording of a setting of the wrong kind. -/
def settingText (f : Flag) (value : Json) : String :=
  match f.kind with
  | .switch => "expected bool but got " ++ value.quoted ++ " (" ++ value.typeName ++ ")"
  | .whole => "expected an int but got " ++ quote value.plain ++ " (" ++ value.typeName ++ ")"
  | .text => value.spelled ++ " -> *string: " ++ (JsonError.mismatch value.kind "string").message

/-- The wording of a fault. -/
def message : UsageFault → String
  | unknownFlag given near => "unknown flag " ++ given ++ hint near
  | unexpectedArgument given near => "unexpected argument " ++ given ++ hint near
  | noValue f => expected f "\"EOL\" (<EOL>)"
  | flagForValue f given =>
    expected f (quote given) ++ " (" ++ flagText given ++ "); perhaps try "
    ++ f.long ++ "=" ++ quote given ++ "?"
  | notWhole f given => f.long ++ ": expected a valid 64 bit int but got " ++ quote given
  | notTruth f given =>
    f.long ++ ": bool value must be true, 1, yes, false, 0 or no but got " ++ quote given
  | notChoice f given =>
    f.long ++ " must be one of "
    ++ String.intercalate "," ((f.choices?.getD []).map quote) ++ " but got " ++ quote given
  | wrongSetting f value => f.long ++ ": " ++ settingText f value
  | notSettings error => error.message
  | unknownVariable name => "undefined variable $\x7b" ++ name ++ "\x7d"
  | noSettings text => text
  | noCommand =>
    "expected one of " ++ String.intercalate ",  " (Verb.all.map fun v => quote v.name)

end UsageFault

end Command
end LetterGrammar
