import QuerySieve.Json.Record
import QuerySieve.Page

/-!
# QuerySieve.Settings

The settings of a search: how parameters are named, how large pages are, and how booleans are read.
-/

namespace QuerySieve

/-- How requests are read. -/
structure SearchSettings where
  naming : Naming := .v1
  defaultPageSize : Nat := 20
  maxPageSize : Nat := 1000
  strictBooleans : Bool := false
  deriving DecidableEq, Repr

namespace SearchSettings

/-- The limits of pages. -/
def limits (settings : SearchSettings) : PageLimits :=
  ⟨settings.defaultPageSize, settings.maxPageSize⟩

/-- Writes the settings. -/
def toJson (settings : SearchSettings) : Json :=
  .obj [("mapper", .str settings.naming.name),
    ("default_page_size", .int settings.defaultPageSize),
    ("max_page_size", .int settings.maxPageSize),
    ("strict_booleans", .bool settings.strictBooleans)]

/-- Reads the exact name of a convention. -/
def namingOfJson? (value : Json) : Option Naming :=
  value.symbol?.bind fun s => [("v1", Naming.v1), ("v2", Naming.v2)].lookup s

/-- Reads settings, of which any may be missing. -/
def ofJson? (value : Json) : Option SearchSettings := do
  let members ← value.record?
    ["mapper", "default_page_size", "max_page_size", "strict_booleans"]
  let defaults : SearchSettings := {}
  let size := Json.natural? Text.nat64Max
  return {
    naming := ← Json.withDefault? "mapper" defaults.naming namingOfJson? members
    defaultPageSize :=
      ← Json.withDefault? "default_page_size" defaults.defaultPageSize size members
    maxPageSize := ← Json.withDefault? "max_page_size" defaults.maxPageSize size members
    strictBooleans :=
      ← Json.withDefault? "strict_booleans" defaults.strictBooleans Json.flag? members }

end SearchSettings

end QuerySieve
