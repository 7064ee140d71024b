import QuerySieve.Database.Address
import QuerySieve.Duration
import QuerySieve.Json.Record

/-!
# QuerySieve.Database

The settings of a database connection, and the options to connect with.

A database in memory lives as long as one connection to it, so its pool has one connection whatever
the settings say.
-/

namespace QuerySieve

/-- The settings of a pool of connections. -/
structure PoolSettings where
  maxConnections : Option Nat := none
  minConnections : Option Nat := none
  /-- How long to wait for a connection. -/
  acquireTimeout : Option Duration := none
  /-- How long a connection may stay unused. -/
  idleTimeout : Option Duration := none
  deriving DecidableEq, Repr

/-- The settings of a database. -/
structure DatabaseSettings where
  url : String := "sqlite::memory:"
  pool : PoolSettings := {}
  deriving DecidableEq, Repr

/-- What a connection is opened with. -/
structure ConnectOptions where
  url : String
  pool : PoolSettings
  deriving DecidableEq, Repr

/-- Reads a duration. -/
def Duration.ofJson? (value : Json) : Option Duration := value.text?.bind parse?

namespace PoolSettings

/-- Reads settings, of which any may be missing or null; an array has both counts at least. -/
def ofJson? (value : Json) : Option PoolSettings := do
  let members ← value.record? ["max_conns", "min_conns", "acquire_timeout", "idle_timeout"] 2
  let count := Json.nullable? (Json.natural? Text.nat32Max)
  let time := Json.nullable? Duration.ofJson?
  return {
    maxConnections := ← Json.withDefault? "max_conns" none count members
    minConnections := ← Json.withDefault? "min_conns" none count members
    acquireTimeout := ← Json.withDefault? "acquire_timeout" none time members
    idleTimeout := ← Json.withDefault? "idle_timeout" none time members }

/-- Writes the settings. -/
def toJson (pool : PoolSettings) : Json :=
  .obj [("max_conns", .ofNat? pool.maxConnections), ("min_conns", .ofNat? pool.minConnections),
    ("acquire_timeout", .ofText? (pool.acquireTimeout.map Duration.text)),
    ("idle_timeout", .ofText? (pool.idleTimeout.map Duration.text))]

end PoolSettings

namespace DatabaseSettings

/-- Reads settings; the URL has to be there. -/
def ofJson? (value : Json) : Option DatabaseSettings := do
  let members ← value.record? ["url", "pool"]
  return {
    url := ← Json.required? "url" Json.text? members
    pool := ← Json.withDefault? "pool" {} PoolSettings.ofJson? members }

/-- Writes the settings. -/
def toJson (settings : DatabaseSettings) : Json :=
  .obj [("url", .str settings.url), ("pool", settings.pool.toJson)]

/-- Does the URL speak of a database in memory? -/
def isInMemory (settings : DatabaseSettings) : Bool :=
  Text.hasPart ":memory:" settings.url

/-- The options to connect with. -/
def connectOptions (settings : DatabaseSettings) : Except AddressError ConnectOptions :=
  match Database.url settings.url with
  | .error error => .error error
  | .ok _ =>
    let most := if settings.isInMemory then some 1 else settings.pool.maxConnections
    .ok ⟨settings.url, { settings.pool with maxConnections := most }⟩

end DatabaseSettings

end QuerySieve
