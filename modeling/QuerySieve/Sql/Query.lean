import QuerySieve.Page
import QuerySieve.Sql.Predicate

/-!
# QuerySieve.Sql.Query

The statements of a search: one page of root rows, their number, and the rows that a relation leads
to from a batch of owners.

A to-many join can repeat a root row. Therefore the page drops repeated rows whenever there is any
join, and the number counts distinct primary keys.
-/

namespace QuerySieve.Sql

/-- The name of the column with the number of rows. -/
def totalColumn : String := "total"

/-- The name of the column with the owner's key of a row that was reached through a link table. -/
def ownerKeyColumn : String := "__owner_key"

/-- The joins of a predicate, if there is one. -/
def joinsOf (predicate : Option Predicate) : List JoinSpec :=
  (predicate.map Predicate.joins).getD []

/-- One page of the rows that meet the predicate, in the order of their primary keys. -/
def selectPage (root : Schema) (predicate : Option Predicate) (page : PageRequest) : Statement where
  distinct := !(joinsOf predicate).isEmpty
  projections := [.all (rootAlias root)]
  table := root.table
  joins := (joinsOf predicate).map JoinSpec.toJoin
  condition := predicate.map Predicate.condition
  order := some ⟨rootAlias root, root.primaryKey⟩
  window := some ⟨page.limit, page.offset⟩

/-- The number of rows that meet the predicate. -/
def selectCount (root : Schema) (predicate : Option Predicate) : Statement where
  distinct := false
  projections := [.countDistinct ⟨rootAlias root, root.primaryKey⟩ totalColumn]
  table := root.table
  joins := (joinsOf predicate).map JoinSpec.toJoin
  condition := predicate.map Predicate.condition
  order := none
  window := none

/-- The rows that a relation leads to from the owners with these keys, in the order of their primary
keys. Through a link table each row comes with the key of its owner. -/
def selectChildren (target : Schema) (relation : Relation) (keys : List Param) : Statement :=
  let base : Statement :=
    { distinct := false, projections := [.all target.table], table := target.table, joins := []
      condition := none, order := some ⟨target.table, target.primaryKey⟩, window := none }
  match relation.via with
  | some via =>
    let owner : Column := ⟨via.table, via.sourceKey⟩
    { base with
      projections := [.all target.table, .named owner ownerKeyColumn]
      joins := [⟨via.table, none, ⟨via.table, via.targetKey⟩, ⟨target.table, relation.foreignKey⟩⟩]
      condition := some (.test owner (.isIn keys)) }
  | none =>
    { base with condition := some (.test ⟨target.table, relation.foreignKey⟩ (.isIn keys)) }

end QuerySieve.Sql
