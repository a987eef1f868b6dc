/-!
# Commands and flags

The vocabulary of the command line.

## Contents

- **`Verb`**: the commands, with their names and descriptions.
- **`Flag`**: the flags, with their names, the kind of value they take and their descriptions.
- **`Flag.available`**: the flags that may be given to a command.
-/

namespace LetterGrammar
namespace Command

/-- The name of the program. -/
def programName : String := "gramatyka"

/-- The version of the program. -/
def programVersion : String := "dev"

/-- What the program can be told to do. -/
inductive Verb
  | check
  | convert
  | words
  | ebnf
deriving DecidableEq, Repr

namespace Verb

/-- All commands, in the order of the help text. -/
def all : List Verb := [check, convert, words, ebnf]

/-- The name of a command. -/
def name : Verb → String
  | check => "check"
  | convert => "convert"
  | words => "words"
  | ebnf => "ebnf"

/-- The command with a name. -/
def ofName? (s : String) : Option Verb :=
  all.find? fun v => v.name = s

/-- What a command does, in one sentence. -/
def description : Verb → String
  | check => "Validate a grammar and report its normal forms."
  | convert => "Convert a grammar in Chomsky normal form to Greibach normal form."
  | words => "List or sample words of the language of a grammar."
  | ebnf => "Print a grammar as EBNF."

/-- Further lines of the help on a command. -/
def details : Verb → List String
  | check =>
    ["Validates the grammar and reports which of the regular, Chomsky and Greibach",
      "forms it satisfies, followed by a listing in the strongest normal form found."]
  | _ => []

end Verb

/-- What may be set on the command line. -/
inductive Flag
  | help
  | config
  | version
  | lang
  | dump
  | require
  | trace
  | verify
  | format
  | maxLen
  | sample
  | depth
  | seed
deriving DecidableEq, Repr

/-- The kind of value a flag takes. -/
inductive FlagKind
  /-- On or off; the flag by itself means on. -/
  | switch
  | text
  | whole
deriving DecidableEq, Repr

namespace Flag

/-- The name of a flag. -/
def name : Flag → String
  | help => "help"
  | config => "config"
  | version => "version"
  | lang => "lang"
  | dump => "dump"
  | require => "require"
  | trace => "trace"
  | verify => "verify"
  | format => "format"
  | maxLen => "max-len"
  | sample => "sample"
  | depth => "depth"
  | seed => "seed"

/-- The name of a flag as it is given. -/
def long (f : Flag) : String := "--" ++ f.name

/-- The short name of a flag, if it has one. -/
def short? : Flag → Option Char
  | help => some 'h'
  | format => some 'f'
  | maxLen => some 'n'
  | _ => none

/-- The spellings of a flag: the long one, then the short one. -/
def spellings (f : Flag) : List String :=
  f.long :: f.short?.toList.map fun c => "-" ++ String.singleton c

/-- The kind of value a flag takes. -/
def kind : Flag → FlagKind
  | config | lang | require | format => .text
  | maxLen | sample | depth | seed => .whole
  | help | version | dump | trace | verify => .switch

/-- The texts among which the value of a flag is chosen, if there is such a choice. -/
def choices? : Flag → Option (List String)
  | require => some ["none", "regular", "chomsky", "greibach"]
  | format => some ["listing", "native", "ebnf", "yaml", "toml"]
  | _ => none

/-- What stands for the value of a flag in the help text: its default, or a word. -/
def placeholder? : Flag → Option String
  | config => some "FILE"
  | lang => some "\"en-us\""
  | require => some "\"none\""
  | format => some "\"listing\""
  | maxLen => some "5"
  | sample => some "INT"
  | depth => some "8"
  | seed => some "1"
  | _ => none

/-- The flags that every command takes. -/
def shared : List Flag := [help, config, version, lang, dump]

/-- The flags that a command alone takes. -/
def own : Verb → List Flag
  | .check => [require]
  | .convert => [trace, verify, format]
  | .words => [maxLen, sample, depth, seed]
  | .ebnf => [verify]

/-- The flags that may be given once a command is known, or before. -/
def available : Option Verb → List Flag
  | none => shared
  | some v => shared ++ own v

/-- What a flag means, by the command it is given to. -/
def description (verb : Option Verb) : Flag → String
  | help => "Show context-sensitive help."
  | config => "Load flag defaults from a JSON file."
  | version => "Print the version and exit."
  | lang => "Language of grammar listings (en-us, pl) ($GRAMATYKA_LANG)."
  | dump => "Dump the loaded grammar structure before running the command."
  | require => "Fail unless the grammar has this form (none,regular,chomsky,greibach)."
  | trace => "Trace the conversion steps to stderr."
  | verify =>
    if verb = some .ebnf then "Fail if a nonterminal is unreachable from the start symbol."
    else "Verify the EBNF rendering of the result."
  | format => "Output format (listing,native,ebnf,yaml,toml)."
  | maxLen => "Longest word to list."
  | sample => "Print this many random words instead of listing the language."
  | depth => "Derivation depth after which sampling takes the shortest productions."
  | seed => "Seed for sampling."

end Flag

end Command
end LetterGrammar
