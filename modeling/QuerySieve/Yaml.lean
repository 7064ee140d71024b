import QuerySieve.Json.Printer
import QuerySieve.Yaml.Scalar

/-!
# QuerySieve.Yaml

A JSON value as a YAML document in block style: each member of an object on lines of its own,
members of a nested object two blanks further in. Arrays and empty objects are written as in JSON.
-/

namespace QuerySieve.Yaml

/-- The blanks before a line at this depth. -/
def indentation (depth : Nat) : String := .ofList (List.replicate (2 * depth) ' ')

mutual

/-- What stands after the colon of a member at a depth, up to the end of the line. -/
def member (depth : Nat) : Json → String
  | .obj [] => " \x7b\x7d\n"
  | .obj members => "\n" ++ block (depth + 1) members
  | .str s =>
    " " ++ (if fitsBlock s then literalBlock (indentation (depth + 1)) s else inline s) ++ "\n"
  | .null => " null\n"
  | .bool b => (if b then " true" else " false") ++ "\n"
  | .int n => " " ++ toString n ++ "\n"
  | .real x => " " ++ x.text ++ "\n"
  | .arr items => " " ++ (Json.arr items).compact ++ "\n"

/-- The members of an object at a depth. -/
def block (depth : Nat) : List (String × Json) → String
  | [] => ""
  | (key, value) :: members =>
    indentation depth ++ inline key ++ ":" ++ member depth value ++ block depth members

end

/-- The document of an object; of any other value its JSON text. -/
def document : Json → String
  | .obj (m :: members) => block 0 (m :: members)
  | value => value.compact ++ "\n"

end QuerySieve.Yaml
