import LetterGrammar.Command.Path
import LetterGrammar.Text.Glyph

/-!
# Folders

A folder as data: the place where names start, and the files around it. Reading by a name goes from folder
to folder, as a file system does, so that every part of a name but the last must be a folder.

## Contents

- **`FileFault`**, **`FileFault.message`**: why a file cannot be read.
- **`nameFault?`**: what is wrong with a name by itself.
- **`Folder`**, **`Folder.read`**: files by their names.
-/

namespace LetterGrammar
namespace Command

/-- Why a file cannot be read. -/
inductive FileFault
  | missing
  | folder
  /-- A part of the path before its last is a file. -/
  | throughFile
  /-- The path or a part of it is too long. -/
  | tooLong
  /-- The path holds a zero byte. -/
  | notPath
  /-- Any other reason, in the words of the system. -/
  | other (text : String)
deriving DecidableEq, Repr

/-- The wording of a fault, for the name of the file. -/
def FileFault.message (name : String) : FileFault → String
  | missing => "open " ++ name ++ ": no such file or directory"
  | folder => "read " ++ name ++ ": is a directory"
  | throughFile => "open " ++ name ++ ": not a directory"
  | tooLong => "open " ++ name ++ ": file name too long"
  | notPath => "open " ++ name ++ ": invalid argument"
  | other text => "open " ++ name ++ ": " ++ text

/-- The greatest number of bytes in a part of a path. -/
def partLimit : Nat := 255

/-- The greatest number of bytes in a path. -/
def pathLimit : Nat := 4095

/-- What is wrong with a name, whatever files there are. -/
def nameFault? (name : String) : Option FileFault :=
  if name.toList.any (fun c => c.toNat = 0) then some .notPath
  else if name.isEmpty then some .missing
  else if pathLimit < name.utf8ByteSize then some .tooLong
  else none

/-- What stands at the end of a path. -/
inductive Entry
  | folder
  | file (text : List Glyph)
deriving DecidableEq, Repr

/-- A folder and the files around it. Both are found by the parts of their paths from the root. -/
structure Folder where
  way : List String
  files : List (List String × List Glyph)
deriving Repr

namespace Folder

/-- What stands at the end of a path from the root. -/
def entry? (f : Folder) (way : List String) : Option Entry :=
  match f.files.find? fun e => e.1 = way with
  | some e => some (.file e.2)
  | none =>
    if way.isPrefixOf f.way || f.files.any fun e => way.isPrefixOf e.1 then some .folder else none

/-- One step on the way to a file, from what must be a folder. There is nothing above the root, and an
    empty part is no step. -/
def step (f : Folder) (way : List String) (part : String) : Except FileFault (List String) :=
  match f.entry? way with
  | none => .error .missing
  | some (.file _) => .error .throughFile
  | some .folder =>
    if part = "" || part = "." then .ok way
    else if part = ".." then .ok way.dropLast
    else if partLimit < part.utf8ByteSize then .error .tooLong
    else .ok (way ++ [part])

/-- Where the way to a file starts: at the root if its name says so, else at the folder. -/
def start (f : Folder) (name : String) : List String :=
  if "/".isPrefixOf name then [] else f.way

/-- The text of a file by its name. -/
def read (f : Folder) (name : String) : Except FileFault (List Glyph) :=
  match nameFault? name with
  | some fault => .error fault
  | none => do
    match f.entry? (← (name.splitOn "/").foldlM f.step (f.start name)) with
    | some (.file text) => return text
    | some .folder => .error .folder
    | none => .error .missing

/-- The folder at a path, with files by their names. -/
def ofFiles (path : String) (files : List (String × List Glyph)) : Folder :=
  let empty : Folder := ⟨pathParts path, []⟩
  { empty with files := files.map fun e => (empty.start e.1 ++ pathParts e.1, e.2) }

end Folder

end Command
end LetterGrammar
