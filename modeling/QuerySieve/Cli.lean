import QuerySieve.Cli.Invocation
import QuerySieve.Explain
import QuerySieve.QueryString
import QuerySieve.Search
import QuerySieve.Sql.Dialect
import QuerySieve.Storage.Scratch

/-!
# QuerySieve.Cli

The commands of the program: `check`, `explain` and `search`.

A run is a function of the arguments, the environment and the texts of files, and its outcome is a
value: what is printed, the exit code, and the error. How files are read is a parameter
(`Cli.run`). What was printed before an error stays part of the outcome. Searches run on a scratch
database, the only kind that needs no engine.
-/

namespace QuerySieve.Cli

/-- What a run comes to. -/
structure Outcome where
  output : String := ""
  /-- The problem document of a failed search. -/
  problem : Option Problem := none
  /-- The sentence that tells why the run failed. -/
  error : Option String := none
  code : Nat := 0

/-- A run that went well. -/
def Outcome.success (output : String) : Outcome := { output }

/-- A run that failed after printing something. -/
def Outcome.failure (output error : String) : Outcome := { output, error := some error, code := 1 }

/-- Lines, each with its end. -/
def lines (ls : List String) : String := String.join (ls.map (· ++ "\n"))

/-! ## Requests -/

/-- The parameters of a request. -/
def Request.params (request : Request) : Params := QueryString.params request.query

/-- The scope of a request: permission to read the entity under the rule named. -/
def Request.scope (request : Request) : AccessScope where
  permission := ⟨request.entity ++ ":read", request.rule⟩
  principal := request.principalId.map fun id => ⟨id, request.username.getD ""⟩

/-- The planner for a request under a configuration. -/
def plannerFor (config : Config) (registry : Registry) (request : Request) : Planner where
  registry := registry
  settings := { config.search with naming := request.naming.getD config.search.naming }

/-! ## Commands -/

/-- A text, or a word for there being none. -/
def orNone (text : Option String) : String := text.getD "(none)"

/-- Shows what a request amounts to. -/
def explain (config : Config) (registry : Registry) (request : Request) : Outcome :=
  let planner := plannerFor config registry request
  let naming := planner.settings.naming
  let filters := (naming.decompose request.params).map fun f =>
    "  " ++ f.field ++ " " ++ f.operator.name ++ " " ++ f.raw
  let output := lines (["entity: " ++ request.entity, "filters:"] ++ filters)
  match planner.describe request.entity request.params naming request.scope with
  | .error error => .failure output error.message
  | .ok predicate =>
    let output := output ++ lines ["predicate: " ++ orNone (predicate.map Description.text)]
    match planner.pageStatement request.entity request.params naming request.scope with
    | .error error => .failure output error.message
    | .ok (select, graph) =>
      match Database.dialect config.database.url with
      | .error error => .failure output error.message
      | .ok dialect =>
        .success (output ++ lines ["sql: " ++ select.inlined dialect,
          "graph: " ++ orNone (if graph.isEmpty then none else some graph.text)])

/-- Shows the entities of the model, if model and database settings are usable. -/
def check (config : Config) (registry : Registry) : Outcome :=
  match Database.dialect config.database.url, config.database.connectOptions with
  | .error error, _ => .failure "" error.message
  | _, .error error => .failure "" error.message
  | .ok _, .ok _ =>
    .success (lines ("Configuration check passed"
      :: registry.schemas.map fun schema => "  entity " ++ schema.name))

/-- Why a database cannot be opened, in words. -/
def connectionFault? (options : ConnectOptions) (url : Url) : Option String :=
  if url.scheme ≠ "sqlite" then
    some ("Connection Error: The connection string '" ++ options.url
      ++ "' has no supporting driver.")
  else if Text.hasPart ":memory:" options.url || Text.hasPart "mode=memory" options.url
      || Text.hasPart "mode=rwc" options.url then none
  else some ("Connection Error: error returned from database: (code: 14) "
    ++ "unable to open database file")

/-- Runs a request on a database and prints the page. -/
def searchOn (db : ScratchDatabase) (config : Config) (registry : Registry) (request : Request) :
    Outcome :=
  let planner := plannerFor config registry request
  match (planner.search ScratchDatabase.connection request.entity request.params request.scope
      ⟨db, []⟩).1 with
  | .ok page => .success (lines [page.toJson.pretty])
  | .error error =>
    let problem := error.problem ("/" ++ request.entity)
    { Outcome.failure "" ("search failed with status " ++ toString problem.status) with
      problem := some problem }

variable {m : Type → Type} [Monad m]

/-- The database that a search runs on, after the script at a path if there is one. -/
def openDatabase (readFile : String → m (Option String)) (config : Config) (seed : Option String) :
    m (Except String ScratchDatabase) := do
  match config.database.connectOptions, Database.url config.database.url with
  | .error error, _ => return .error error.message
  | _, .error error => return .error error.message
  | .ok options, .ok url =>
    match connectionFault? options url, seed with
    | some fault, _ => return .error fault
    | none, none => return .ok []
    | none, some path =>
      match ← readFile path with
      | none => return .error ("Failed to read seed script '" ++ path ++ "'")
      | some script =>
        match ScratchDatabase.run? [] script with
        | none => return .error ("Seed script '" ++ path ++ "' failed")
        | some db => return .ok db

/-- Searches. -/
def search (readFile : String → m (Option String)) (config : Config) (registry : Registry)
    (request : Request) (seed : Option String) : m Outcome := do
  match ← openDatabase readFile config seed with
  | .error fault => return .failure "" fault
  | .ok db => return searchOn db config registry request

/-- Runs a command under a configuration. -/
def runCommand (readFile : String → m (Option String)) (config : Config) (command : Command) :
    m Outcome := do
  match ← config.loadSchema readFile with
  | .error error => return .failure "" error.message
  | .ok registry =>
    match command with
    | .explain request => return explain config registry request
    | .search request seed => search readFile config registry request seed
    | .check => return check config registry

/-! ## The program -/

/-- The name and version of the program. -/
def versionText : String := "urlfilter-cli 0.1.0"

/-- How the program is used. -/
def usageText : String := lines
  ["Usage: urlfilter-cli [OPTIONS] [COMMAND]", "", "Commands:",
    "  explain  Show how a query string compiles, without touching the database",
    "  search   Run a query string against the configured database",
    "  check    Check configuration and entity model", "", "Options:",
    "  -c, --config <FILE>       Path to configuration file",
    "      --schema <FILE>       Entity model file (overrides config)",
    "      --database-url <URL>  Database DSN (overrides config)",
    "      --print-config        Print current configuration and exit",
    "  -v, --verbose             Log verbosity level",
    "  -h, --help                Print help",
    "  -V, --version             Print version"]

/-- What a run comes to that ends with the arguments. -/
def Stop.outcome : Stop → Outcome
  | .misuse => { code := 2 }
  | .help => .success usageText
  | .version => .success (lines [versionText])

/-- Runs the program. -/
def run (readFile : String → m (Option String)) (bindings : List (String × String))
    (args : List String) : m Outcome := do
  match Invocation.ofArguments args with
  | .error stop => return stop.outcome
  | .ok invocation =>
    match ← Config.load readFile invocation.configPath bindings with
    | .error error => return .failure "" error.message
    | .ok config =>
      let config := config.override invocation.overrides
      if invocation.printConfig then return .success (lines [config.toYaml])
      else runCommand readFile config invocation.command

end QuerySieve.Cli
