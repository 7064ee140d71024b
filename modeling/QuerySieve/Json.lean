import QuerySieve.Dict
import QuerySieve.Binary64

/-!
# QuerySieve.Json

JSON values: the rows a database returns, serialized models, configuration documents and problem
documents.

Integers and doubles are kept apart, so `1` and `1.0` are two values. The members of an object are a
list; documents that are read have them in key order (`Json.object`), and the functions on members
keep that order.
-/

namespace QuerySieve

/-- A JSON value. -/
inductive Json
  | null
  | bool (value : Bool)
  | int (value : Int)
  | real (value : Binary64)
  | str (value : String)
  | arr (items : List Json)
  | obj (members : List (String × Json))
  deriving Inhabited, Repr

namespace Json

/-- An object with its members in key order; of members with one name the last counts. -/
def object (members : List (String × Json)) : Json := .obj (Entries.ofList members)

/-- The member of an object with this name. -/
def get? (key : String) : Json → Option Json
  | .obj members => Entries.get? key members
  | _ => none

/-- The value with a member set; what is no object stays as it is. -/
def set (j : Json) (key : String) (value : Json) : Json :=
  match j with
  | .obj members => .obj (Entries.insert key value members)
  | other => other

/-- The value without a member; what is no object stays as it is. -/
def erase (key : String) : Json → Json
  | .obj members => .obj (Entries.erase key members)
  | other => other

/-- A text, or null. -/
def ofText? : Option String → Json
  | some s => .str s
  | none => .null

/-- A natural number, or null. -/
def ofNat? : Option Nat → Json
  | some n => .int n
  | none => .null

@[simp] theorem get?_set_obj (key other : String) (value : Json) (members : List (String × Json)) :
    (set (.obj members) key value).get? other
      = if other = key then some value else (Json.obj members).get? other := by
  by_cases h : other = key
  · subst h; simp [set, get?]
  · simp [set, get?, h, Entries.get?_insert_of_ne]

end Json

end QuerySieve
