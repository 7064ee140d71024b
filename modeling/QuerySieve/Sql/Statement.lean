import QuerySieve.Binary64
import QuerySieve.Filter

/-!
# QuerySieve.Sql.Statement

SQL statements as data: what is selected, from which tables joined how, under which condition, in
which order and window.

Nothing here is text yet, and every value stands apart from the names. Rendering is the matter of
`QuerySieve.Sql.Dialect`.
-/

namespace QuerySieve.Sql

/-- A value that a statement binds. -/
inductive Param
  | int (n : Int)
  | real (x : Binary64)
  | bool (b : Bool)
  | text (s : String)
  deriving DecidableEq, Repr

/-- The parameter of a filter's value. -/
def Param.ofValue : Value → Param
  | .long n => int n
  | .boolean b => bool b
  | .text s => text s

/-- A column of a table or of an alias. -/
structure Column where
  qualifier : String
  name : String
  deriving DecidableEq, Repr

/-- A condition on the joined rows. -/
inductive Condition
  | test (column : Column) (comparison : Comparison Param)
  | and (left right : Condition)
  deriving DecidableEq, Repr

/-- The tests from left to right. -/
def Condition.leaves : Condition → List (Column × Comparison Param)
  | test column comparison => [(column, comparison)]
  | and left right => left.leaves ++ right.leaves

/-- An inner join on the equality of two columns. -/
structure Join where
  table : String
  /-- The name under which the joined table is known, if not its own. -/
  tableAlias? : Option String
  left : Column
  right : Column
  deriving DecidableEq, Repr

/-- What a statement returns. -/
inductive Projection
  /-- All columns of a table. -/
  | all (table : String)
  /-- One column under a name. -/
  | named (column : Column) (name : String)
  /-- The number of distinct values of a column, under a name. -/
  | countDistinct (column : Column) (name : String)
  deriving DecidableEq, Repr

/-- The part of the rows that is returned. -/
structure Window where
  limit : Nat
  offset : Nat
  deriving DecidableEq, Repr

/-- A statement that reads. -/
structure Statement where
  /-- Are equal rows returned once only? -/
  distinct : Bool
  projections : List Projection
  table : String
  joins : List Join
  condition : Option Condition
  /-- The column whose ascending order the rows have. -/
  order : Option Column
  window : Option Window
  deriving DecidableEq, Repr

end QuerySieve.Sql
