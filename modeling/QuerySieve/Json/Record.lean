import QuerySieve.Json

/-!
# QuerySieve.Json.Record

Reading a JSON value as a record with known members.

A record is written as an object, or as an array of its members' values in order. A member may be
absent; whether it then has a default is for the reader to say. All readers answer `none` for a
value of another shape.
-/

namespace QuerySieve.Json

/-- The members of a record that may have members of these names only. An array needs at least
`least` items, for not all members that an object may lack can be left out of an array. -/
def record? (names : List String) (value : Json) (least : Nat := 0) :
    Option (List (String × Json)) :=
  match value with
  | .obj members => if members.all fun m => names.contains m.1 then some members else none
  | .arr items =>
    if least ≤ items.length ∧ items.length ≤ names.length then some (names.zip items) else none
  | _ => none

/-- The members of a record in which other members are ignored. -/
def openRecord? (names : List String) : Json → Option (List (String × Json))
  | .obj members => some (members.filter fun m => names.contains m.1)
  | other => record? names other

/-- A member that has to be there. -/
def required? {α : Type} (key : String) (read : Json → Option α)
    (members : List (String × Json)) : Option α :=
  (Entries.get? key members).bind read

/-- A member with a default. -/
def withDefault? {α : Type} (key : String) (default : α) (read : Json → Option α)
    (members : List (String × Json)) : Option α :=
  match Entries.get? key members with
  | some value => read value
  | none => some default

/-- A value or null. -/
def nullable? {α : Type} (read : Json → Option α) : Json → Option (Option α)
  | .null => some none
  | value => (read value).map some

/-- A string. -/
def text? : Json → Option String
  | .str s => some s
  | _ => none

/-- A truth value. -/
def flag? : Json → Option Bool
  | .bool b => some b
  | _ => none

/-- An integer from `low` to `high`. -/
def integer? (low high : Int) : Json → Option Int
  | .int n => if low ≤ n ∧ n ≤ high then some n else none
  | _ => none

/-- A natural number up to `high`. -/
def natural? (high : Nat) (value : Json) : Option Nat :=
  (integer? 0 high value).map Int.toNat

/-- A name without contents: a string, or an object whose only member is null. -/
def symbol? : Json → Option String
  | .str s => some s
  | .obj [(s, .null)] => some s
  | _ => none

/-- An array whose items are all readable. -/
def list? {α : Type} (read : Json → Option α) : Json → Option (List α)
  | .arr items => items.mapM read
  | _ => none

/-- An object whose members are all readable. -/
def dict? {α : Type} (read : Json → Option α) : Json → Option (Dict α)
  | .obj members =>
    (members.mapM fun m => (read m.2).map fun value => (m.1, value)).map Dict.ofList
  | _ => none

end QuerySieve.Json
