import QuerySieve.Schema

/-!
# QuerySieve.Schema.Path

Resolving a field path against a model: every segment but the last follows a relation, the last one
names a scalar field.
-/

namespace QuerySieve

/-- One followed relation. -/
structure Hop where
  /-- The name of the relation. -/
  name : String
  relation : Relation
  /-- The entity that it leads to. -/
  target : Schema
  deriving DecidableEq

/-- A path that leads from an entity to a scalar field. -/
structure ResolvedPath where
  hops : List Hop
  leaf : Field
  /-- The type of the leaf. -/
  type : ValueType
  deriving DecidableEq

namespace Registry

/-- The field of an entity, for a path whose full text is `full`. -/
def lookup (full : String) (schema : Schema) (name : String) : Except FilterError Field :=
  match schema.field? name with
  | some field => .ok field
  | none => .error (.unresolved full (.unknownField name schema.name))

/-- Follows one relation of a path. -/
def hop (reg : Registry) (full : String) (current : Schema) (segment : String) :
    Except FilterError Hop := do
  let field ← lookup full current segment
  match field.relation? with
  | none => throw (.unresolved full (.notTraversable segment current.name))
  | some relation => return ⟨segment, relation, ← reg.schema relation.target⟩

/-- Ends a path at a scalar field. -/
def leaf (full : String) (current : Schema) (segment : String) :
    Except FilterError ResolvedPath := do
  let field ← lookup full current segment
  match field.valueType? with
  | none => throw (.unresolved full (.relationLeaf segment))
  | some type => return ⟨[], field, type⟩

/-- Resolves the remaining segments of a path from the entity reached so far. -/
def resolveFrom (reg : Registry) (full : String) :
    Schema → List String → Except FilterError ResolvedPath
  | _, [] => .error (.unresolved full .emptyPath)
  | current, [segment] => leaf full current segment
  | current, segment :: rest => do
    let hop ← reg.hop full current segment
    let resolved ← resolveFrom reg full hop.target rest
    return { resolved with hops := hop :: resolved.hops }

/-- Resolves a path from an entity. -/
def resolve (reg : Registry) (root : Schema) (path : List String) :
    Except FilterError ResolvedPath :=
  reg.resolveFrom (Text.join '.' path) root path

end Registry

end QuerySieve
