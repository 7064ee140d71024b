import QuerySieve.Cli

/-!
# QuerySieve.Main

The program as an executable: files, environment and streams for `QuerySieve.Cli.run`.
-/

namespace QuerySieve

/-- The text of a file, if it can be read. -/
def readTextFile (path : String) : IO (Option String) := do
  try return some (← IO.FS.readFile path) catch _ => return none

/-- The names of the members of the configuration that the environment can set. The list is fixed,
for variables are asked for by name; sections of logging besides `default` are not on it. -/
def settableMembers : List String :=
  ["SEARCH__MAPPER", "SEARCH__DEFAULT_PAGE_SIZE", "SEARCH__MAX_PAGE_SIZE",
    "SEARCH__STRICT_BOOLEANS", "DATABASE__URL", "DATABASE__POOL__MAX_CONNS",
    "DATABASE__POOL__MIN_CONNS", "DATABASE__POOL__ACQUIRE_TIMEOUT",
    "DATABASE__POOL__IDLE_TIMEOUT", "SCHEMA_FILE",
    "LOGGING__DEFAULT__CONSOLE_LEVEL", "LOGGING__DEFAULT__FILE", "LOGGING__DEFAULT__FILE_LEVEL"]

/-- The variables of the environment that belong to the configuration. -/
def readEnvironment : IO (List (String × String)) :=
  settableMembers.filterMapM fun member => do
    let name := Config.environmentMark ++ member
    return (← IO.getEnv name).map fun value => (name, value)

end QuerySieve

open QuerySieve in
/-- Runs the program and prints what it comes to. -/
def main (args : List String) : IO UInt32 := do
  let outcome ← Cli.run readTextFile (← readEnvironment) args
  IO.print outcome.output
  if let some problem := outcome.problem then IO.eprintln problem.toJson.pretty
  if let some error := outcome.error then IO.eprintln ("Error: " ++ error)
  if outcome.code = 2 then IO.eprint Cli.usageText
  return outcome.code.toUInt32
