import LetterGrammar.Command.Usage
import LetterGrammar.Text.Integer
import LetterGrammar.Text.LowerCase

/-!
# Values of flags

## Contents

- **`Value`**: the value of a flag.
- **`Value.ofText`**, **`Value.ofJson`**: the value for a flag, from the command line or from a setting.
- **`Values`**: flags with their values; of two values for one flag the first counts.
-/

namespace LetterGrammar
namespace Command

/-- The value of a flag. -/
inductive Value
  | switch (on : Bool)
  | text (s : String)
  | whole (n : Int)
deriving DecidableEq, Repr

/-- What the words for on and off mean. -/
def truth? (word : String) : Option Bool :=
  if ["true", "1", "yes"].contains word then some true
  else if ["false", "0", "no"].contains word then some false
  else none

namespace Value

/-- The value for a flag that a text spells. -/
def ofText (f : Flag) (given : String) : Except UsageFault Value :=
  match f.kind with
  | .text => .ok (.text given)
  | .whole =>
    match (readInBase? 10 given.toList).filter fitsWord with
    | some n => .ok (.whole n)
    | none => .error (.notWhole f given)
  | .switch =>
    match truth? (lowerText given) with
    | some on => .ok (.switch on)
    | none => .error (.notTruth f (lowerText given))

/-- The value for a flag that a setting holds. A number is rounded to an integer. -/
def ofJson (f : Flag) (j : Json) : Except UsageFault Value :=
  match j, f.kind with
  | .text s, _ => ofText f s
  | .truth on, .switch => .ok (.switch on)
  | .number n, .whole =>
    match n.value.whole? with
    | some k => if fitsWord k then .ok (.whole k) else .error (.notWhole f (toString k))
    | none => .error (.wrongSetting f j)
  | _, _ => .error (.wrongSetting f j)

end Value

/-- Flags with their values. -/
abbrev Values := List (Flag × Value)

namespace Values

/-- The flag has a value. -/
def sets (vs : Values) (f : Flag) : Bool :=
  vs.any fun e => e.1 = f

/-- The switch is on. -/
def switch (vs : Values) (f : Flag) : Bool :=
  match vs.lookup f with
  | some (.switch on) => on
  | _ => false

/-- The text of a flag, or its default. -/
def text (vs : Values) (f : Flag) (default : String) : String :=
  match vs.lookup f with
  | some (.text s) => s
  | _ => default

/-- The integer of a flag, or its default. -/
def whole (vs : Values) (f : Flag) (default : Int) : Int :=
  match vs.lookup f with
  | some (.whole n) => n
  | _ => default

end Values

end Command
end LetterGrammar
