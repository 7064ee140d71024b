import QuerySieve.Text

/-!
# QuerySieve.FilePath

Paths of files as texts: what is above a path, and what a path means from there.

Slashes at the end of a path, and parts that are a single dot after another part, do not count.
-/

namespace QuerySieve.FilePath

/-- A path, read from its end, without the slashes and dots there that do not count. -/
def trimEnd : List Char → List Char
  | '/' :: cs => trimEnd cs
  | '.' :: '/' :: cs => trimEnd cs
  | cs => cs

/-- Does a path begin at the root? -/
def isAbsolute (path : String) : Bool := Text.startsWith "/" path

/-- The directory that a path lies in. A path of one part lies in the current directory. -/
def directory (path : String) : String :=
  let above := (trimEnd path.toList.reverse).dropWhile (· != '/')
  match trimEnd above with
  | [] => if above = [] then "." else "/"
  | cs => .ofList cs.reverse

/-- What a path means from a directory. -/
def resolve (base path : String) : String :=
  if isAbsolute path then path
  else if Text.endsWith "/" base then base ++ path
  else base ++ "/" ++ path

end QuerySieve.FilePath
