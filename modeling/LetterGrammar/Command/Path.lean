/-!
# Paths

The path of a file is a list of parts divided by slashes. Here it is only read as a text; whether there
are such files does not matter.

## Contents

- **`pathParts`**: the parts of a path from the root, without the detours.
- **`absolutePath`**: the path from the root, for one that may start elsewhere.
-/

namespace LetterGrammar
namespace Command

/-- The parts of a path from the root: `..` takes back the part before it, and `.` stands for nothing. -/
def pathParts (path : String) : List String :=
  (path.splitOn "/").foldl (fun parts p =>
    if p = "" || p = "." then parts
    else if p = ".." then parts.dropLast
    else parts ++ [p]) []

/-- The path from the root that the parts of a path spell. -/
def cleanPath (path : String) : String :=
  "/" ++ String.intercalate "/" (pathParts path)

/-- The path from the root, for one that may start at a folder, or at the home folder if it starts with
    a tilde. A path that starts at the root stays as it is. -/
def absolutePath (folder home path : String) : String :=
  if "/".isPrefixOf path then path
  else if "~/".isPrefixOf path then cleanPath (home ++ "/" ++ String.ofList (path.toList.drop 2))
  else cleanPath (folder ++ "/" ++ path)

end Command
end LetterGrammar
