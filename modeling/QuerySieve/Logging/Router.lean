import QuerySieve.Logging

/-!
# QuerySieve.Logging.Router

Which file a record is written to.

A section's file takes the records of the target with the section's name and of the targets below
it, whose names go on with `::`. Records that no section takes go to the file of the section for
all other targets. Sections without a file, or with one that cannot be opened, take no part.
-/

namespace QuerySieve

/-- What separates the parts of a target's name. -/
def targetSeparator : String := "::"

/-- Is a target the named one or below it? -/
def isTargetWithin (name target : String) : Bool :=
  target == name || Text.startsWith (name ++ targetSeparator) target

/-- The files of sections. -/
structure LogRouter where
  /-- The file for records that no section takes. -/
  fallback : Option String := none
  /-- The files of the other sections; of several that could take a record the first does. -/
  named : List (String × String) := []
  deriving DecidableEq, Repr

namespace LogRouter

/-- The router for sections in the order given; `opens` tells which files can be opened. -/
def ofSections (opens : String → Bool) (sections : List (String × LogSection)) : LogRouter :=
  let usable := sections.filter fun s => s.2.hasFile && opens s.2.file
  { fallback := (usable.find? fun s => s.1 == LogSettings.catchAll).map fun s => s.2.file
    named := (usable.filter fun s => s.1 != LogSettings.catchAll).map fun s => (s.1, s.2.file) }

/-- The section whose file takes the records of a target, and that file. -/
def routeFor (r : LogRouter) (target : String) : Option (String × String) :=
  match r.named.find? fun n => isTargetWithin n.1 target with
  | some n => some n
  | none => r.fallback.map fun file => (LogSettings.catchAll, file)

/-- The file that takes the records of a target. -/
def fileFor (r : LogRouter) (target : String) : Option String := (r.routeFor target).map (·.2)

/-- Is there no file at all? -/
def isEmpty (r : LogRouter) : Bool := r.fallback.isNone && r.named.isEmpty

/-- All files. -/
def files (r : LogRouter) : List String := r.fallback.toList ++ r.named.map (·.2)

end LogRouter

end QuerySieve
