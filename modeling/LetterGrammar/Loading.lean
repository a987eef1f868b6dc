import LetterGrammar.Ebnf.Reader
import LetterGrammar.Native.Reader
import LetterGrammar.Toml.Reader
import LetterGrammar.Yaml.Reader

/-!
# Loading a grammar file

The extension of a file's name tells its format.

## Contents

- **`FileFormat`**, **`FileFormat.ofName`**: the formats and their extensions.
- **`load`**: the grammar of a file.
-/

namespace LetterGrammar

/-- The formats a grammar file can have. -/
inductive FileFormat
  | native
  | ebnf
  | yaml
  | toml
deriving DecidableEq, Repr

/-- The extension of a file's name, from the last dot of its last part. -/
def extension (filename : String) : String :=
  let last := (filename.toList.reverse.takeWhile (· ≠ '/'))
  let ext := last.takeWhile (· ≠ '.')
  if ext.length < last.length then String.ofList ('.' :: ext.reverse) else ""

/-- The format that a file's name tells; the native notation if it tells none. -/
def FileFormat.ofName (filename : String) : FileFormat :=
  match (extension filename).map Char.toLower with
  | ".yaml" => yaml
  | ".yml" => yaml
  | ".toml" => toml
  | ".ebnf" => ebnf
  | _ => native

/-- The grammar of a file. -/
def load (filename : String) (text : List Glyph) : Except Fault Grammar :=
  match FileFormat.ofName filename with
  | .yaml => Yaml.read text
  | .toml => Toml.read text
  | .ebnf => Ebnf.read filename text
  | .native => Native.read filename text

end LetterGrammar
