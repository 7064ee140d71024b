import QuerySieve.Config.Layers
import QuerySieve.Database
import QuerySieve.FilePath
import QuerySieve.Logging
import QuerySieve.Schema.Serialized
import QuerySieve.Settings
import QuerySieve.Yaml

/-!
# QuerySieve.Config

The configuration of the program: where it comes from and what the command line overrides.

A configuration is laid together from defaults, a file and the environment, and then read as a
whole: a member that is unknown, or is not of its type, makes all of it unusable. How files are read
is a parameter of the functions that need them, so that loading is a function wherever reading is
one.
-/

namespace QuerySieve

/-- The configuration. -/
structure Config where
  search : SearchSettings := {}
  database : DatabaseSettings := {}
  /-- The file of the entity model. -/
  schemaFile : Option String := none
  logging : Option LogSettings := some .standard

/-- Why a configuration or the model that it names cannot be used. -/
inductive ConfigError
  /-- The layers together are no configuration. -/
  | unusable
  | noSchemaFile
  | unreadableSchema (path : String)
  | invalidSchema (path : String)
  deriving DecidableEq, Repr

/-- The sentence that tells the error. -/
def ConfigError.message : ConfigError → String
  | unusable => "Failed to extract config from figment"
  | noSchemaFile => "no schema file configured (set \x60schema_file\x60 or pass --schema)"
  | unreadableSchema path => "Failed to read schema file '" ++ path ++ "'"
  | invalidSchema path => "Invalid schema file '" ++ path ++ "'"

/-- What the command line says about the configuration. -/
structure Overrides where
  schema : Option String := none
  databaseUrl : Option String := none
  /-- How often more output was asked for. -/
  verbosity : Nat := 0

namespace Config

/-! ## As a document -/

/-- Writes a configuration. -/
def toJson (config : Config) : Json :=
  .obj [("search", config.search.toJson), ("database", config.database.toJson),
    ("schema_file", .ofText? config.schemaFile),
    ("logging", match config.logging with
      | some sections => .obj (sections.map fun _ part => part.toJson).entries
      | none => .null)]

/-- Reads a configuration, in which any part may be missing. -/
def ofJson? (value : Json) : Option Config := do
  let members ← value.record? ["search", "database", "schema_file", "logging"]
  return {
    search := ← Json.withDefault? "search" {} SearchSettings.ofJson? members
    database := ← Json.withDefault? "database" {} DatabaseSettings.ofJson? members
    schemaFile := ← Json.withDefault? "schema_file" none (Json.nullable? Json.text?) members
    logging := ←
      Json.withDefault? "logging" none (Json.nullable? (Json.dict? LogSection.ofJson?)) members }

/-- The configuration as YAML. -/
def toYaml (config : Config) : String := Yaml.document config.toJson

/-! ## Loading -/

/-- The lowest layer: the defaults, but no logging. -/
def baseLayer : Json := toJson { logging := none }

/-- The layer of a file with this text; an empty file is an empty layer. Of YAML, which files are
written in, the notation of JSON alone is read; any other text is no layer. -/
def fileLayer? (text : String) : Option Json :=
  if Text.isBlankText text then some (.obj [])
  else match Json.parse? text with
    | some (.obj members) => some (Json.obj members)
    | _ => none

/-- The configuration with the file of the model found from the directory of the configuration. -/
def locateSchema (path : String) (config : Config) : Config :=
  { config with
    schemaFile := config.schemaFile.map (FilePath.resolve (FilePath.directory path)) }

/-- The configuration of a file and the environment. An unreadable file is an empty layer. -/
def ofFile (path : String) (text : Option String) (bindings : List (String × String)) :
    Except ConfigError Config :=
  match fileLayer? (text.getD "") with
  | none => .error .unusable
  | some layer =>
    match ofJson? ((baseLayer.overlay layer).overlay (environment bindings)) with
    | some config => .ok (config.locateSchema path)
    | none => .error .unusable

variable {m : Type → Type} [Monad m]

/-- The configuration of the file at a path. Without a path it is the defaults alone. -/
def load (readFile : String → m (Option String)) (path : Option String)
    (bindings : List (String × String)) : m (Except ConfigError Config) := do
  match path with
  | none => return .ok {}
  | some path => return ofFile path (← readFile path) bindings

/-- The model in the file that the configuration names. As with layers, the notation of JSON alone
is read; any other text is an invalid model. -/
def loadSchema (readFile : String → m (Option String)) (config : Config) :
    m (Except ConfigError Registry) := do
  match config.schemaFile with
  | none => return .error .noSchemaFile
  | some path =>
    match ← readFile path with
    | none => return .error (.unreadableSchema path)
    | some text =>
      match (Json.parse? text).map Registry.loadPlain with
      | some (.ok registry) => return .ok registry
      | _ => return .error (.invalidSchema path)

/-! ## Overrides -/

/-- The level that a verbosity asks for, if it asks for any. -/
def verboseLevel? : Nat → Option String
  | 0 => none
  | 1 => some "info"
  | 2 => some "debug"
  | _ => some "trace"

/-- Logging settings with the console level of the section for all other targets changed, if there
is such a section. -/
def withVerbosity (verbosity : Nat) (sections : LogSettings) : LogSettings :=
  match verboseLevel? verbosity, sections.get? LogSettings.catchAll with
  | some level, some part =>
    sections.insert LogSettings.catchAll { part with consoleLevel := level }
  | _, _ => sections

/-- The configuration as the command line wants it; it always has logging settings. -/
def override (config : Config) (overrides : Overrides) : Config :=
  { config with
    schemaFile := overrides.schema.or config.schemaFile
    database := { config.database with url := overrides.databaseUrl.getD config.database.url }
    logging := some (withVerbosity overrides.verbosity (config.logging.getD .standard)) }

end Config

end QuerySieve
