import QuerySieve.Description
import QuerySieve.Planner
import QuerySieve.Sql.Query

/-!
# QuerySieve.Explain

What a request amounts to, without running it: the predicate in words, the statement that would read
the page, and the graph that would be loaded with it.

The words and the statement come from two runs of one compiler over two builders, the statement
starting from a fresh builder as a search does.
-/

namespace QuerySieve

/-- What a request amounts to. -/
structure Explanation where
  /-- The predicate in words; none if the rows are not filtered. -/
  predicate : Option Description
  /-- The statement that reads the page. -/
  select : Sql.Statement
  graph : FetchGraph

namespace Planner

/-- The predicate of a request in words. -/
def describe (p : Planner) (entity : String) (params : Params) (naming : Naming)
    (scope : AccessScope) : Except FilterError (Option Description) :=
  ((p.plan entity params naming scope ({} : Describer)).1).map SearchPlan.predicate

/-- The statement that reads the page that a request asks for, and the graph to load with it. -/
def pageStatement (p : Planner) (entity : String) (params : Params) (naming : Naming)
    (scope : AccessScope) : Except FilterError (Sql.Statement × FetchGraph) := do
  let root ← p.registry.schema entity
  let page ← PageRequest.ofParams params p.settings.limits
  let plan ← (p.plan entity params naming scope ({} : Sql.Builder)).1
  return (Sql.selectPage root plan.predicate page, plan.graph)

/-- Explains a request. -/
def explain (p : Planner) (entity : String) (params : Params) (naming : Naming)
    (scope : AccessScope) : Except FilterError Explanation := do
  let predicate ← p.describe entity params naming scope
  let (select, graph) ← p.pageStatement entity params naming scope
  return { predicate, select, graph }

end Planner

end QuerySieve
