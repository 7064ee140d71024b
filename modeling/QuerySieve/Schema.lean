import QuerySieve.Dict
import QuerySieve.Error

/-!
# QuerySieve.Schema

The model that requests are checked against: entities with their tables, and the fields of each.

Relations name their target, so models may be cyclic. A `Registry` keeps each entity under its own
name (`Registry.named`); it is put together with `Registry.with` and need not be consistent until
`Registry.validate` accepts it.
-/

namespace QuerySieve

/-- The type of a scalar field; it decides how values are coerced. -/
inductive ValueType
  | string
  | long
  | boolean
  | other
  deriving DecidableEq, Repr

/-- How many rows a relation leads to. -/
inductive Cardinality
  | toOne
  | toMany
  deriving DecidableEq, Repr

/-- The table between the two ends of a many-to-many relation. -/
structure LinkTable where
  table : String
  /-- The column that refers to the owning row. -/
  sourceKey : String
  /-- The column that refers to the target row. -/
  targetKey : String
  deriving DecidableEq, Repr

/-- How a relation is stored. Without a link table the rows match where the owner's `localKey`
equals the target's `foreignKey`; with one, `localKey` equals the link's `sourceKey` and the link's
`targetKey` equals `foreignKey`. -/
structure Relation where
  target : String
  cardinality : Cardinality
  localKey : String
  foreignKey : String
  via : Option LinkTable
  deriving DecidableEq, Repr

/-- What a field is. -/
inductive FieldKind
  /-- A column; without a declared name it is called like the field. -/
  | scalar (type : ValueType) (column : Option String)
  | relation (relation : Relation)
  deriving DecidableEq, Repr

/-- A field with its name. -/
structure Field where
  name : String
  kind : FieldKind
  deriving DecidableEq, Repr

namespace Field

/-- Does the field lead to any number of rows? -/
def isCollection (f : Field) : Bool :=
  match f.kind with
  | .relation r => r.cardinality = .toMany
  | .scalar .. => false

/-- The relation that the field is. -/
def relation? (f : Field) : Option Relation :=
  match f.kind with
  | .relation r => some r
  | .scalar .. => none

/-- The type of a scalar field. -/
def valueType? (f : Field) : Option ValueType :=
  match f.kind with
  | .scalar type _ => some type
  | .relation _ => none

/-- The column of a scalar field. -/
def column? (f : Field) : Option String :=
  match f.kind with
  | .scalar _ column => some (column.getD f.name)
  | .relation _ => none

end Field

/-- An entity: its table and its fields. -/
structure Schema where
  name : String
  table : String
  primaryKey : String
  fields : Dict FieldKind
  deriving DecidableEq, Repr

namespace Schema

/-- The primary key of an entity that declares none. -/
def defaultPrimaryKey : String := "id"

/-- An entity without fields. -/
def new (name table : String) : Schema := ⟨name, table, defaultPrimaryKey, .empty⟩

/-- The entity with another primary key. -/
def withPrimaryKey (s : Schema) (column : String) : Schema := { s with primaryKey := column }

/-- The entity with a field added or replaced. -/
def withField (s : Schema) (name : String) (kind : FieldKind) : Schema :=
  { s with fields := s.fields.insert name kind }

/-- A scalar field stored in the column of its name. -/
def scalar (s : Schema) (name : String) (type : ValueType) : Schema :=
  s.withField name (.scalar type none)

/-- A scalar field with a declared column. -/
def scalarColumn (s : Schema) (name column : String) (type : ValueType) : Schema :=
  s.withField name (.scalar type (some column))

/-- A relation. -/
def relation (s : Schema) (name : String) (relation : Relation) : Schema :=
  s.withField name (.relation relation)

/-- A relation to at most one row; `localKey` is a column of this entity. -/
def toOne (s : Schema) (name target localKey foreignKey : String) : Schema :=
  s.relation name ⟨target, .toOne, localKey, foreignKey, none⟩

/-- A relation to any number of rows; `foreignKey` is a column of the target. -/
def toMany (s : Schema) (name target localKey foreignKey : String) : Schema :=
  s.relation name ⟨target, .toMany, localKey, foreignKey, none⟩

/-- The field of this name. -/
def field? (s : Schema) (name : String) : Option Field :=
  (s.fields.get? name).map fun kind => ⟨name, kind⟩

/-- The fields in name order. -/
def fieldList (s : Schema) : List Field := s.fields.entries.map fun (name, kind) => ⟨name, kind⟩

end Schema

/-- The entities of a model, each under its name. -/
structure Registry where
  entities : Dict Schema
  named : ∀ e ∈ entities.entries, e.2.name = e.1
  deriving DecidableEq

namespace Registry

/-- The model without entities. -/
def empty : Registry := ⟨.empty, by intro e h; cases h⟩

instance : Inhabited Registry := ⟨empty⟩

/-- The model with an entity added or replaced. -/
def «with» (reg : Registry) (schema : Schema) : Registry :=
  ⟨reg.entities.insert schema.name schema, fun e h => by
    rcases Entries.mem_of_mem_insert h with rfl | h
    · rfl
    · exact reg.named e h⟩

/-- The model of these entities; of entities with one name the last counts. -/
def ofList (schemas : List Schema) : Registry := schemas.foldl «with» empty

/-- The entities in name order. -/
def schemas (reg : Registry) : List Schema := reg.entities.values

/-- The entity of this name. -/
def schema (reg : Registry) (entity : String) : Except FilterError Schema :=
  match reg.entities.get? entity with
  | some schema => .ok schema
  | none => .error (.unresolved entity .unknownEntity)

/-- The entity that a relation leads to. -/
def related (reg : Registry) (owner : Schema) (field : Field) : Except FilterError Schema :=
  match field.relation? with
  | some relation => reg.schema relation.target
  | none => .error (.unresolved (owner.name ++ "." ++ field.name) .notRelation)

/-- The first fault of a relation: a target that the model lacks, or a key without a name. -/
def relationFault? (reg : Registry) (relation : Relation) : Option PathFault :=
  if !reg.entities.contains relation.target then some (.danglingTarget relation.target)
  else if relation.localKey = "" ∨ relation.foreignKey = ""
      ∨ relation.via.any (fun v => v.table = "" ∨ v.sourceKey = "" ∨ v.targetKey = "") then
    some .unnamedKey
  else none

/-- The first fault of an entity and the path that it is at. -/
def schemaFault? (reg : Registry) (schema : Schema) : Option (String × PathFault) :=
  if Text.isBlankText schema.table ∨ Text.isBlankText schema.primaryKey then
    some (schema.name, .unnamedTable)
  else schema.fieldList.findSome? fun field =>
    match field.relation? with
    | some relation =>
      (reg.relationFault? relation).map fun fault => (schema.name ++ "." ++ field.name, fault)
    | none => none

/-- Accepts a model in which every entity has its table and primary key and every relation an
existing target and all its keys; otherwise tells the first fault in name order. -/
def validate (reg : Registry) : Except FilterError Unit :=
  match reg.schemas.findSome? reg.schemaFault? with
  | some (path, fault) => .error (.unresolved path fault)
  | none => .ok ()

end Registry

end QuerySieve
