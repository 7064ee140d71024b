import QuerySieve.Schema
import QuerySieve.Json.Record

/-!
# QuerySieve.Schema.Serialized

The serialized form of a model, and loading it.

An entity is stored under its name and the form does not repeat it; loading takes the name from the
key. Written, a model has canonical type names, always a primary key and fields, and no `column` or
`via` that is not set. Read, defaults may be missing and types may have their other names. What is
loaded has been validated.
-/

namespace QuerySieve

namespace ValueType

/-- The canonical name. -/
def name : ValueType → String
  | string => "string"
  | long => "long"
  | boolean => "boolean"
  | other => "other"

/-- The type of a name, canonical or not. -/
def ofName? (name : String) : Option ValueType :=
  [("string", string), ("long", long), ("int", long), ("integer", long), ("i64", long),
    ("boolean", boolean), ("bool", boolean), ("other", other)].lookup name

/-- Reads a type. -/
def ofJson? (value : Json) : Option ValueType := value.symbol?.bind ofName?

@[simp] theorem ofName?_name (t : ValueType) : ofName? t.name = some t := by cases t <;> decide

end ValueType

namespace Cardinality

/-- The name. -/
def name : Cardinality → String
  | toOne => "to_one"
  | toMany => "to_many"

/-- Reads a cardinality. -/
def ofJson? (value : Json) : Option Cardinality :=
  value.symbol?.bind fun s => [("to_one", toOne), ("to_many", toMany)].lookup s

end Cardinality

namespace LinkTable

/-- Writes a link table. -/
def toJson (v : LinkTable) : Json :=
  .object [("table", .str v.table), ("source_key", .str v.sourceKey),
    ("target_key", .str v.targetKey)]

/-- Reads a link table. -/
def ofJson? (value : Json) : Option LinkTable := do
  let members ← value.record? ["table", "source_key", "target_key"]
  return ⟨← Json.required? "table" Json.text? members,
    ← Json.required? "source_key" Json.text? members,
    ← Json.required? "target_key" Json.text? members⟩

end LinkTable

namespace Relation

/-- The members of a written relation. -/
def members (r : Relation) : List (String × Json) :=
  [("target", .str r.target), ("cardinality", .str r.cardinality.name),
    ("local_key", .str r.localKey), ("foreign_key", .str r.foreignKey)]
    ++ (r.via.map fun v => ("via", v.toJson)).toList

/-- Writes a relation. -/
def toJson (r : Relation) : Json := .object r.members

/-- Reads a relation. -/
def ofJson? (value : Json) : Option Relation := do
  let members ← value.record? ["target", "cardinality", "local_key", "foreign_key", "via"]
  return ⟨← Json.required? "target" Json.text? members,
    ← Json.required? "cardinality" Cardinality.ofJson? members,
    ← Json.required? "local_key" Json.text? members,
    ← Json.required? "foreign_key" Json.text? members,
    ← Json.withDefault? "via" none (Json.nullable? LinkTable.ofJson?) members⟩

end Relation

namespace FieldKind

/-- Writes a field. -/
def toJson : FieldKind → Json
  | scalar type column =>
    .object ([("kind", .str "scalar"), ("type", .str type.name)]
      ++ (column.map fun c => ("column", Json.str c)).toList)
  | relation r => .object (("kind", .str "relation") :: r.members)

/-- Reads what follows the kind of a field. -/
def ofKind? (kind : String) (content : Json) : Option FieldKind :=
  if kind = "scalar" then do
    let members ← content.openRecord? ["type", "column"]
    return .scalar (← Json.required? "type" ValueType.ofJson? members)
      (← Json.withDefault? "column" none (Json.nullable? Json.text?) members)
  else if kind = "relation" then (Relation.ofJson? content).map .relation
  else none

/-- Reads a field. -/
def ofJson? : Json → Option FieldKind
  | .obj members => do
    let kind ← Json.required? "kind" Json.text? members
    ofKind? kind (.obj (Entries.erase "kind" members))
  | .arr (.str kind :: items) => ofKind? kind (.arr items)
  | _ => none

end FieldKind

namespace Schema

/-- Writes an entity without its name. -/
def toJson (s : Schema) : Json :=
  .object [("table", .str s.table), ("primary_key", .str s.primaryKey),
    ("fields", .obj (s.fields.entries.map fun (name, kind) => (name, kind.toJson)))]

/-- Reads the entity of a name; `text?` says what a table and a primary key may be written as. -/
def ofJson? (text? : Json → Option String) (name : String) (value : Json) : Option Schema := do
  let members ← value.record? ["table", "primary_key", "fields"]
  return ⟨name, ← Json.required? "table" text? members,
    ← Json.withDefault? "primary_key" defaultPrimaryKey text? members,
    ← Json.withDefault? "fields" .empty (Json.dict? FieldKind.ofJson?) members⟩

end Schema

/-- Why a serialized model is not loaded. -/
inductive LoadError
  /-- The document does not have the shape of a model. -/
  | shape
  /-- The model is not valid. -/
  | invalid (error : FilterError)
  deriving DecidableEq, Repr

namespace Registry

/-- Writes a model. -/
def toJson (reg : Registry) : Json :=
  .object [("entities", .obj (reg.entities.entries.map fun (name, s) => (name, s.toJson)))]

/-- Reads a model without validating it. -/
def ofJson? (text? : Json → Option String) (value : Json) : Option Registry := do
  let members ← value.record? ["entities"]
  match Entries.get? "entities" members with
  | none => return .empty
  | some (.obj entities) =>
    return .ofList (← entities.mapM fun (name, s) => Schema.ofJson? text? name s)
  | some _ => none

/-- Reads and validates a model. -/
def loadWith (text? : Json → Option String) (value : Json) : Except LoadError Registry :=
  match ofJson? text? value with
  | none => .error .shape
  | some reg =>
    match reg.validate with
    | .ok () => .ok reg
    | .error e => .error (.invalid e)

/-- Loads a model from its serialized form. -/
def load (value : Json) : Except LoadError Registry := loadWith Json.text? value

/-- A text in a document whose scalars need no quotes: any scalar, as it is written. -/
def plainText? : Json → Option String
  | .str s => some s
  | .int n => some (toString n)
  | .real x => some x.text
  | .bool b => some (if b then "true" else "false")
  | .null => some "null"
  | _ => none

/-- Loads a model from a document whose scalars need no quotes. -/
def loadPlain (value : Json) : Except LoadError Registry := loadWith plainText? value

end Registry

end QuerySieve
