import QuerySieve.Json.Record
import QuerySieve.Text
import QuerySieve.Text.Decimal

/-!
# QuerySieve.Logging

Logging settings, and which records they let through.

Settings are sections, each for the log targets that its name begins; of several the longest name
counts. The section `default` is for all other targets. A section gives a level for the console, and
one for a file if it names a file.
-/

namespace QuerySieve

/-- How much a record matters, the gravest first. -/
inductive LogLevel
  | error
  | warn
  | info
  | debug
  | trace
  deriving DecidableEq, Repr

namespace LogLevel

/-- How many levels are graver. -/
def verbosity : LogLevel → Nat
  | error => 0
  | warn => 1
  | info => 2
  | debug => 3
  | trace => 4

/-- The name of a level. -/
def name : LogLevel → String
  | error => "error"
  | warn => "warn"
  | info => "info"
  | debug => "debug"
  | trace => "trace"

/-- The most verbose level that a setting lets through, in any case; none if it turns logging off. A
word that is no level means `info`. -/
def ofSetting? (setting : String) : Option LogLevel :=
  let word := Text.lower setting
  if word = "off" ∨ word = "none" then none
  else some (([error, warn, info, debug, trace].find? fun level => level.name == word).getD info)

end LogLevel

/-- The settings for some targets. -/
structure LogSection where
  consoleLevel : String
  /-- The file to write to; a blank one is none. -/
  file : String := ""
  fileLevel : String := ""
  maxBackups : Option Nat := none
  maxSizeMb : Option Nat := none
  deriving DecidableEq, Repr

namespace LogSection

/-- Does the section name a file? -/
def hasFile (part : LogSection) : Bool := !Text.isBlankText part.file

/-- What is let through to the console. -/
def consoleFilter (part : LogSection) : Option LogLevel := LogLevel.ofSetting? part.consoleLevel

/-- What is let through to the file. -/
def fileFilter (part : LogSection) : Option LogLevel :=
  if part.hasFile then LogLevel.ofSetting? part.fileLevel else none

/-- Reads a section, in which other members are ignored. -/
def ofJson? (value : Json) : Option LogSection := do
  let members ← value.openRecord?
    ["console_level", "file", "file_level", "max_backups", "max_size_mb"]
  let count := Json.nullable? (Json.natural? Text.nat64Max)
  return {
    consoleLevel := ← Json.required? "console_level" Json.text? members
    file := ← Json.withDefault? "file" "" Json.text? members
    fileLevel := ← Json.withDefault? "file_level" "" Json.text? members
    maxBackups := ← Json.withDefault? "max_backups" none count members
    maxSizeMb := ← Json.withDefault? "max_size_mb" none count members }

/-- Writes a section. -/
def toJson (part : LogSection) : Json :=
  .obj [("console_level", .str part.consoleLevel), ("file", .str part.file),
    ("file_level", .str part.fileLevel), ("max_backups", .ofNat? part.maxBackups),
    ("max_size_mb", .ofNat? part.maxSizeMb)]

end LogSection

/-- Sections by name. -/
abbrev LogSettings := Dict LogSection

namespace LogSettings

/-- The name of the section for all other targets. -/
def catchAll : String := "default"

/-- The settings where none are given. -/
def standard : LogSettings :=
  .ofList [(catchAll,
    { consoleLevel := "warn", fileLevel := "debug", maxBackups := some 3, maxSizeMb := some 100 })]

end LogSettings

/-- Which records pass: levels by the start of the target, and a level for all other targets. A
level of none lets nothing pass. -/
structure LogFilter where
  named : List (String × Option LogLevel)
  otherwise : Option LogLevel
  deriving DecidableEq, Repr

namespace LogFilter

/-- The longer of two names with something, the first if they are equally long. -/
def longer {α : Type} (a b : String × α) : String × α :=
  if a.1.length < b.1.length then b else a

/-- Of the names that a target begins with, the longest, with its level. -/
def longest? (target : String) (named : List (String × Option LogLevel)) :
    Option (String × Option LogLevel) :=
  match named.filter fun n => Text.startsWith n.1 target with
  | [] => none
  | n :: ns => some (ns.foldl longer n)

/-- The most verbose level that passes for a target. -/
def levelFor (f : LogFilter) (target : String) : Option LogLevel :=
  match longest? target f.named with
  | some (_, level) => level
  | none => f.otherwise

/-- Does a record of this level pass? -/
def enables (f : LogFilter) (target : String) (level : LogLevel) : Bool :=
  match f.levelFor target with
  | some most => level.verbosity ≤ most.verbosity
  | none => false

/-- The filter that gives each section's targets the level of the section. -/
def ofSections (level : LogSection → Option LogLevel) (settings : LogSettings) : LogFilter where
  named :=
    (settings.entries.filter fun s => s.1 != LogSettings.catchAll).map fun s => (s.1, level s.2)
  otherwise := (settings.get? LogSettings.catchAll).bind level

/-- What passes to the console. -/
def console : LogSettings → LogFilter := ofSections LogSection.consoleFilter

/-- What passes to the files. -/
def files : LogSettings → LogFilter := ofSections LogSection.fileFilter

end LogFilter

end QuerySieve
