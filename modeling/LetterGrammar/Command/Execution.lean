import LetterGrammar.Command.Action
import LetterGrammar.Command.Dump
import LetterGrammar.Command.Invocation
import LetterGrammar.Ebnf.Verification
import LetterGrammar.Greibach.Conversion
import LetterGrammar.Language.Sampling
import LetterGrammar.Loading
import LetterGrammar.Locale
import LetterGrammar.Native.Writer
import LetterGrammar.Toml.Writer
import LetterGrammar.Yaml.Writer

/-!
# Execution of commands

## Contents

- **`Invocation.load`**: the grammar that an invocation is about.
- **`check`**, **`convert`**, **`words`**, **`printEbnf`**: the commands, on a grammar.
- **`Invocation.execute`**: a whole invocation, on the text of its file.
-/

namespace LetterGrammar
namespace Command

/-! ## Loading -/

/-- The complaints about the literals of a file, which do not keep it from being read. -/
def literalComplaints (file : String) (text : List Glyph) : List String :=
  match FileFormat.ofName file with
  | .ebnf => (Ebnf.tokenize file text).complaints
  | _ => []

/-- The grammar in the text of the file, dumped if so asked. -/
def Invocation.load (i : Invocation) (text : List Glyph) : Action Grammar := do
  warn (String.join ((literalComplaints i.file text).map fun m => m ++ "\n"))
  let g ← Action.ofFault (LetterGrammar.load i.file text)
  warn (if i.dump then Command.dump (.ofGrammar g) else "")
  return g

/-! ## Commands -/

/-- The labels of the language asked for. -/
def labelsFor (lang : String) : Action Labels :=
  match Locale.labels lang with
  | .ok labels => pure labels
  | .error f => Action.fail (Flag.lang.long ++ ": " ++ f.message)

/-- One line on whether the grammar has a form. -/
def formLine (g : Grammar) (form : Form) (remark : String) : String :=
  form.name ++ ": " ++ Json.truthText (g.has form) ++ remark ++ "\n"

/-- The strongest normal form of a grammar. -/
def strongestForm (g : Grammar) : Form :=
  if g.isGreibach then .greibach else if g.isChomsky then .chomsky else .contextFree

/-- Reports the forms of a grammar and lists it; fails if it lacks the required form. -/
def check (lang : String) (required : Form) (g : Grammar) : Action Unit := do
  let labels ← labelsFor lang
  print (formLine g .regular (" (" ++ g.linearity.name ++ ")"))
  print (formLine g .chomsky "")
  print (formLine g .greibach "")
  print (Listing.text labels (strongestForm g) (g.asRegular.toOption.getD g))
  if g.has required then pure () else Action.fail (Fault.form required).message

/-- Prints a grammar in a format. Only a listing needs the labels of a language. -/
def printAs (lang : String) (form : Form) (g : Grammar) : OutputFormat → Action Unit
  | .native => print (String.join (Native.pieces g))
  | .ebnf => print (Ebnf.write g ++ "\n")
  | .yaml => print (Yaml.write (.ofGrammar g))
  | .toml => print (Toml.write (.ofGrammar g))
  | .listing => do print (Listing.text (← labelsFor lang) form g)

/-- Verifies the result of a conversion; an empty one needs no verification. -/
def verifyResult (g : Grammar) : Action Unit :=
  match Ebnf.verify g with
  | .error f => if g.nonterminals.isEmpty then pure () else Action.fail ("verify: " ++ f.message)
  | .ok () => pure ()

/-- Converts a grammar and prints the result. -/
def convert (lang : String) (traced verified : Bool) (format : OutputFormat) (g : Grammar) :
    Action Unit := do
  let chomsky ← Action.ofFault g.asChomsky
  let run := chomsky.toGreibach (if traced then [Setting.trace] else [])
  warn (Event.text run.events)
  let result ← Action.ofFault run.result
  if verified then verifyResult result.grammar
  printAs lang .greibach result.grammar format

/-- The line of a word. -/
def wordLine (w : Word) : String :=
  quote (Body.text w) ++ "\n"

/-- The lines of so many random words. -/
def sampleLines (g : Grammar) (depth : Int) : Nat → Source → List String
  | 0, _ => []
  | n + 1, s =>
    match sample? g depth s with
    | none => []
    | some (w, s) => wordLine w :: sampleLines g depth n s

/-- The numbers that drive the sampling for a seed. -/
def seedNumbers (seed : Int) : Nat → List Int
  | 0 => []
  | n + 1 =>
    let next := (seed * 6364136223846793005 + 1442695040888963407) % (Nat.pow 2 64 : Nat)
    next :: seedNumbers next n

/-- Lists the words of a grammar, or samples some. -/
def words (maxLen sample depth seed : Int) (g : Grammar) : Action Unit :=
  if 0 < sample then
    print (String.join (sampleLines g depth sample.toNat (.start (seedNumbers seed 257))))
  else print (String.join (((enumerate? g maxLen).getD []).map wordLine))

/-- Prints a grammar as EBNF, verified if so asked. -/
def printEbnf (verified : Bool) (g : Grammar) : Action Unit := do
  if verified then Action.ofFault (Ebnf.verify g)
  print (Ebnf.write g ++ "\n")

/-- A job, on a grammar. -/
def Job.execute (lang : String) (g : Grammar) : Job → Action Unit
  | .check required => Command.check lang required g
  | .convert traced verified format => Command.convert lang traced verified format g
  | .words maxLen sample depth seed => Command.words maxLen sample depth seed g
  | .ebnf verified => printEbnf verified g

/-- An invocation, on the text of its file. -/
def Invocation.execute (i : Invocation) (text : List Glyph) : Action Unit := do
  i.job.execute i.lang (← i.load text)

end Command
end LetterGrammar
