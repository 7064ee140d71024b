import QuerySieve.Predicate
import QuerySieve.Sql.Statement

/-!
# QuerySieve.Sql.Predicate

Predicates for a database: a condition, and the joins that its columns need.

Every path that is started opens an *entry* of its own number, and the aliases of its joins carry
that number. So two filters under one to-many relation may be met by different rows, and joins are
shared within one entry only.
-/

namespace QuerySieve.Sql

/-- `INNER JOIN table AS tableAlias ON leftAlias.leftColumn = tableAlias.rightColumn`. -/
structure JoinSpec where
  table : String
  tableAlias : String
  leftAlias : String
  leftColumn : String
  rightColumn : String
  deriving DecidableEq, Repr

/-- The join in a statement. -/
def JoinSpec.toJoin (j : JoinSpec) : Join :=
  ⟨j.table, some j.tableAlias, ⟨j.leftAlias, j.leftColumn⟩, ⟨j.tableAlias, j.rightColumn⟩⟩

/-- The name under which the columns of a root entity are known: its table's. -/
def rootAlias (root : Schema) : String := root.table

/-- Adds a join unless one of its alias is there. -/
def pushJoin (joins : List JoinSpec) (join : JoinSpec) : List JoinSpec :=
  if joins.any fun j => j.tableAlias = join.tableAlias then joins else joins ++ [join]

/-- An entity, or with a column set one of its columns, as reached from a root. -/
structure Path where
  /-- The number of the entry that the path was started for. -/
  entry : Nat
  tableAlias : String
  /-- The names of the relations followed, with marks between them; empty at a root. -/
  relations : String
  column : Option String
  joins : List JoinSpec
  deriving DecidableEq, Repr

/-- The column that a test of the path is about; an entity is tested by the column `*`. -/
def Path.tested (path : Path) : Column := ⟨path.tableAlias, path.column.getD "*"⟩

/-- A condition with every join that it refers to. -/
structure Predicate where
  condition : Condition
  joins : List JoinSpec
  deriving DecidableEq, Repr

/-- What stands between the relation names of an alias. -/
def aliasMark : String := "__"

/-- The relations followed, with one more at the end. -/
def extendRelations (relations name : String) : String :=
  if relations = "" then name else relations ++ aliasMark ++ name

/-- The alias of the entity that relations lead to in an entry. -/
def joinAlias (entry : Nat) (relations : String) : String :=
  "j" ++ toString entry ++ "_" ++ relations

/-- The alias of the link table on the way to the entity of an alias. -/
def linkAlias (target : String) : String := target ++ aliasMark ++ "via"

/-- The joins from an alias to the target of a relation. -/
def hopJoins (source target : String) (hop : Hop) : List JoinSpec :=
  match hop.relation.via with
  | some via =>
    [⟨via.table, linkAlias target, source, hop.relation.localKey, via.sourceKey⟩,
      ⟨hop.target.table, target, linkAlias target, via.targetKey, hop.relation.foreignKey⟩]
  | none => [⟨hop.target.table, target, source, hop.relation.localKey, hop.relation.foreignKey⟩]

/-- Builds predicates for a database. -/
structure Builder where
  /-- How many entries have been opened. -/
  entries : Nat := 0
  deriving DecidableEq, Repr

namespace Path

/-- The path at a root, in an entry of this number. -/
def start (root : Schema) (entry : Nat) : Path := ⟨entry, rootAlias root, "", none, []⟩

/-- Follows a relation. -/
def follow (path : Path) (hop : Hop) : Path :=
  let relations := extendRelations path.relations hop.name
  let tableAlias := joinAlias path.entry relations
  { path with
    tableAlias, relations, column := none
    joins := (hopJoins path.tableAlias tableAlias hop).foldl pushJoin path.joins }

/-- Turns to a field; a relation has no column. -/
def field (path : Path) (field : Field) : Path := { path with column := field.column? }

end Path

namespace Predicate

/-- One test. -/
def leaf (path : Path) (comparison : Comparison Value) : Predicate :=
  ⟨.test path.tested (comparison.map .ofValue), path.joins⟩

/-- Both conditions, over the joins of both. -/
def conj (left right : Predicate) : Predicate :=
  ⟨.and left.condition right.condition, right.joins.foldl pushJoin left.joins⟩

end Predicate

instance : PredicateBuilder Builder Path Predicate where
  root schema s := (Path.start schema (s.entries + 1), ⟨s.entries + 1⟩)
  join path hop s := (path.follow hop, s)
  get := Path.field
  test := Predicate.leaf
  and := Predicate.conj

end QuerySieve.Sql
