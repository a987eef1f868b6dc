import LetterGrammar.Command.Flag

/-!
# Help texts

Help texts are laid out for a width of 80 characters: descriptions stand in a second column beside what
they describe, broken between words.

## Contents

- **`wrap`**: words on lines of a width.
- **`columns`**: a table of two columns.
- **`help`**: the help text of the program or of a command.
-/

namespace LetterGrammar
namespace Command

/-- The width of a table inside its margin. -/
def tableWidth : Nat := 78

/-- The number of spaces between two columns. -/
def gutter : Nat := 4

/-- The words on lines of at most `width` characters, as many on a line as fit. `line` is the line
    begun. -/
def wrapFrom (width : Nat) (line : String) : List String → List String
  | [] => [line]
  | w :: rest =>
    if line.length + 1 + w.length ≤ width then wrapFrom width (line ++ " " ++ w) rest
    else line :: wrapFrom width w rest

/-- A text on lines of at most `width` characters, broken between words. -/
def wrap (width : Nat) (text : String) : List String :=
  match text.splitOn " " with
  | [] => [""]
  | w :: rest => wrapFrom width w rest

/-- So many spaces. -/
def spaces (n : Nat) : String :=
  String.ofList (List.replicate n ' ')

/-- The text with spaces up to a width. -/
def padTo (width : Nat) (text : String) : String :=
  text ++ spaces (width - text.length)

/-- A line without the spaces at its end. -/
def trimEnd (line : String) : String :=
  String.ofList (line.toList.reverse.dropWhile (· = ' ')).reverse

/-- The lines of a table: what is described, and beside it the description. -/
def columns (rows : List (String × String)) : List String :=
  let left := (rows.map fun r => r.1.length).foldl max 0
  rows.flatMap fun r =>
    let cells := wrap (tableWidth - left - gutter) r.2
    let lines := (padTo (left + gutter) r.1 ++ cells.headD "")
      :: (cells.drop 1).map fun c => spaces (left + gutter) ++ c
    lines.map fun l => trimEnd ("  " ++ l)

/-- A flag as the first column shows it. -/
def flagLabel (f : Flag) : String :=
  (match f.short? with
    | some c => "-" ++ String.singleton c ++ ", "
    | none => "    ")
  ++ f.long
  ++ (match f.placeholder? with
    | some p => "=" ++ p
    | none => "")

/-- The rows of flags. -/
def flagRows (verb : Option Verb) (flags : List Flag) : List (String × String) :=
  flags.map fun f => (flagLabel f, f.description verb)

/-- The synopsis of a command. -/
def synopsis (v : Verb) : String :=
  v.name ++ " [<file>] [flags]"

/-- The lines on the file argument. -/
def argumentLines : List String :=
  "Arguments:" :: columns [("[<file>]", "Grammar file, read from stdin if omitted. The notation "
    ++ "follows the extension: .yaml, .yml, .toml, .ebnf, anything else is the native notation.")]

/-- The help on the program. -/
def programLines : List String :=
  ["Usage: " ++ programName ++ " <command> [flags]", "",
    "Context-free grammars over single-letter alphabets.", "", "Flags:"]
  ++ columns (flagRows none Flag.shared)
  ++ ["", "Commands:"]
  ++ Verb.all.flatMap (fun v => ["  " ++ synopsis v, "    " ++ v.description, ""])
  ++ ["Run \"" ++ programName ++ " <command> --help\" for more information on a command."]

/-- The help on a command. -/
def verbLines (v : Verb) : List String :=
  ["Usage: " ++ programName ++ " " ++ synopsis v, "", v.description, ""]
  ++ (if v.details.isEmpty then [] else v.details ++ [""])
  ++ argumentLines
  ++ ["", "Flags:"]
  ++ columns (flagRows (some v) Flag.shared ++ ("", "") :: flagRows (some v) (Flag.own v))

/-- The help text of the program, or of a command. -/
def help (verb : Option Verb) : String :=
  String.join ((verb.elim programLines verbLines).map fun l => l ++ "\n")

end Command
end LetterGrammar
