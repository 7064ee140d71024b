import QuerySieve.Graph
import QuerySieve.Json.Printer
import QuerySieve.Storage

/-!
# QuerySieve.EagerLoad

Loading the relations of a graph for a batch of rows.

Each relation costs one statement at most, whatever the number of rows: the children of all rows are
fetched together, the relations below are loaded for the children, and then they are handed to their
owners. Rows and children belong together if their keys have the same text (`keyText?`), so that `7`
matches `7` whatever the width of the columns.
-/

namespace QuerySieve.EagerLoad

/-- The text by which keys are compared; null is no key. -/
def keyText? : Json → Option String
  | .null => none
  | .str s => some s
  | other => some other.compact

/-- The parameter for a key. An integer that is not a signed 64-bit one is bound as a double. -/
def keyParam? : Json → Option Sql.Param
  | .int n => some (if n ≤ Text.int64Max then .int n else .real (.ofInt n))
  | .real x => some (.real x)
  | .str s => some (.text s)
  | .bool b => some (.bool b)
  | _ => none

/-- The key that a row has in a column, as text. -/
def rowKey? (column : String) (row : Json) : Option String := (row.get? column).bind keyText?

/-- The text and the parameter of a row's key, if the key can be bound. -/
def keyPair? (column : String) (row : Json) : Option (String × Sql.Param) := do
  let value ← row.get? column
  return (← keyText? value, ← keyParam? value)

/-- The keys of the rows, one for each text; of parameters with one text the last counts. -/
def distinctKeys (rows : List Json) (column : String) : Dict Sql.Param :=
  .ofList (rows.filterMap (keyPair? column))

/-- The column in which a child carries its owner's key. -/
def ownerColumn (relation : Relation) : String :=
  if relation.via.isSome then Sql.ownerKeyColumn else relation.foreignKey

/-- A child without the key that was added for its owner. -/
def stripOwner (relation : Relation) (child : Json) : Json :=
  if relation.via.isSome then child.erase Sql.ownerKeyColumn else child

/-- The children that belong to a row's key. -/
def childrenOf (key : Option String) (children : List (Option String × Json)) : List Json :=
  match key with
  | none => []
  | some key =>
    children.filterMap fun (owner, child) => if owner = some key then some child else none

/-- What a row gets under the name of a relation: all its children, or the first or null. -/
def attached (cardinality : Cardinality) (children : List Json) : Json :=
  match cardinality with
  | .toMany => .arr children
  | .toOne => children.head?.getD .null

/-- Hands the children, each with its owner's key, to the rows. -/
def attach (name : String) (relation : Relation) (children : List (Option String × Json))
    (rows : List Json) : List Json :=
  rows.map fun row =>
    row.set name
      (attached relation.cardinality (childrenOf (rowKey? relation.localKey row) children))

/-- The relation of an entity to load, and where it leads. -/
def relationTo (reg : Registry) (owner : Schema) (name : String) :
    Except StorageCause (Relation × Schema) :=
  match owner.field? name with
  | none => .error (.unknownField name owner.name)
  | some field =>
    match field.relation? with
    | none => .error (.notRelation name owner.name)
    | some relation =>
      match reg.schema relation.target with
      | .error error => .error (.model error)
      | .ok target => .ok (relation, target)

variable {κ : Type}

/-- Fetches the children of all rows. Without a key there is nothing to ask for. -/
def fetch (conn : Connection κ) (owner : Schema) (name : String) (relation : Relation)
    (target : Schema) (rows : List Json) (session : Session κ) : Outcome κ (List Json) :=
  match (distinctKeys rows relation.localKey).values with
  | [] => (.ok [], session)
  | keys =>
    conn.query ("loading `" ++ owner.name ++ "." ++ name ++ "`")
      (Sql.selectChildren target relation keys) session

/-- Loads the relations of a forest for rows of an entity, siblings in their order and each with
what is below it. Without rows nothing happens. -/
def load (reg : Registry) (conn : Connection κ) :
    Forest → Schema → List Json → Session κ → Outcome κ (List Json)
  | .nil, _, rows, session => (.ok rows, session)
  | .node name below siblings, owner, rows, session =>
    if rows.isEmpty then (.ok rows, session)
    else match relationTo reg owner name with
      | .error cause => (.error ⟨cause, []⟩, session)
      | .ok (relation, target) =>
        match fetch conn owner name relation target rows session with
        | (.error failure, session) => (.error failure, session)
        | (.ok fetched, session) =>
          match load reg conn below target (fetched.map (stripOwner relation)) session with
          | (.error failure, session) => (.error failure, session)
          | (.ok children, session) =>
            let owners := fetched.map (rowKey? (ownerColumn relation))
            load reg conn siblings owner (attach name relation (owners.zip children) rows) session

end QuerySieve.EagerLoad
