import LetterGrammar.Command.Value

/-!
# Settings files

A settings file is a JSON object that gives values for flags which the arguments leave open. A flag is
named as on the command line with underscores for hyphens, or with its words run together.

## Contents

- **`settingNames`**: the names under which a flag is looked up.
- **`settings`**: the values that a file gives.
-/

namespace LetterGrammar
namespace Command

/-- Words with the first letter of each but the first in upper case, and the hyphens left out. -/
def runTogether : List Char → List Char
  | [] => []
  | '-' :: c :: rest => c.toUpper :: runTogether rest
  | c :: rest => c :: runTogether rest

/-- The names under which a flag is looked up, in the order of preference. -/
def settingNames (f : Flag) : List String :=
  [f.name.map fun c => if c = '-' then '_' else c, String.ofList (runTogether f.name.toList)]

/-- The setting of a flag. A null sets nothing. -/
def setting? (fields : List (String × Json)) (f : Flag) : Option Json :=
  match (settingNames f).findSome? fun name => fields.lookup name with
  | some .null => none
  | found => found

/-- The values that a file gives for those of the flags that have none yet. -/
def settings (fields : List (String × Json)) (flags : List Flag) (given : Values) :
    Except UsageFault Values :=
  flags.foldlM (fun vs f =>
    match setting? fields f with
    | some j => if given.sets f then .ok vs else (Value.ofJson f j).map fun v => vs ++ [(f, v)]
    | none => .ok vs) []

end Command
end LetterGrammar
