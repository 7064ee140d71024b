import QuerySieve.Cli.Arguments
import QuerySieve.Config

/-!
# QuerySieve.Cli.Invocation

What the command line asks for: a command with its request, and what it says about the
configuration.

Options of the program stand before the command, those of the command after it. Without a command
the configuration is checked.
-/

namespace QuerySieve.Cli

/-- A request on the command line. -/
structure Request where
  entity : String
  query : String := ""
  naming : Option Naming := none
  rule : String := "all"
  principalId : Option Int := none
  username : Option String := none

/-- What to do. -/
inductive Command
  | explain (request : Request)
  /-- Searches, after running the script at a path if there is one. -/
  | search (request : Request) (seed : Option String)
  | check

/-- A command line. -/
structure Invocation where
  configPath : Option String
  overrides : Overrides
  printConfig : Bool
  command : Command

/-- An option with any value. -/
def anyValue (name : String) (letter : Option Char := none) : OptionSpec :=
  ⟨name, letter, .value fun _ => true⟩

/-- An option with a path. -/
def pathValue (name : String) (letter : Option Char := none) : OptionSpec :=
  ⟨name, letter, .value fun path => !path.isEmpty⟩

/-- The option that asks for the usage. -/
def helpOption : OptionSpec := ⟨"help", some 'h', .stop .help⟩

/-- The options before the command. -/
def programOptions : List OptionSpec :=
  [pathValue "config" (some 'c'), anyValue "schema", anyValue "database-url",
    ⟨"print-config", none, .switch⟩, ⟨"verbose", some 'v', .counter⟩, helpOption,
    ⟨"version", some 'V', .stop .version⟩]

/-- The options of a request. -/
def requestOptions : List OptionSpec :=
  [anyValue "entity" (some 'e'), anyValue "query" (some 'q'),
    ⟨"mapper", none, .value fun name => (Naming.ofName? name).isSome⟩, anyValue "rule",
    ⟨"principal-id", none, .value fun id => (Text.int64? id).isSome⟩, anyValue "username",
    helpOption]

/-- The request that options state; the entity has to be among them. -/
def Request.ofFound (found : Found) : Except Stop Request :=
  match found.value? "entity" with
  | none => .error .misuse
  | some entity => .ok {
      entity
      query := (found.value? "query").getD ""
      naming := (found.value? "mapper").bind Naming.ofName?
      rule := (found.value? "rule").getD "all"
      principalId := (found.value? "principal-id").bind Text.int64?
      username := found.value? "username" }

/-- Reads options that nothing may follow. -/
def readAll (specs : List OptionSpec) (args : List String) : Except Stop Found :=
  match readOptions specs [] args with
  | .ok (found, []) => .ok found
  | .ok _ => .error .misuse
  | .error why => .error why

/-- Reads a command with its options. -/
def readCommand : List String → Except Stop Command
  | [] => .ok .check
  | "check" :: args => (readAll [helpOption] args).map fun _ => .check
  | "explain" :: args => do
    let found ← readAll requestOptions args
    return .explain (← Request.ofFound found)
  | "search" :: args => do
    let found ← readAll (requestOptions ++ [pathValue "seed"]) args
    return .search (← Request.ofFound found) (found.value? "seed")
  | "help" :: _ => .error .help
  | _ => .error .misuse

/-- Reads a command line. -/
def Invocation.ofArguments (args : List String) : Except Stop Invocation := do
  let (found, rest) ← readOptions programOptions [] args
  let command ← readCommand rest
  return {
    configPath := found.value? "config"
    overrides := {
      schema := found.value? "schema"
      databaseUrl := found.value? "database-url"
      verbosity := found.count "verbose" }
    printConfig := found.has "print-config"
    command }

end QuerySieve.Cli
