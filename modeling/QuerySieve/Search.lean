import QuerySieve.EagerLoad
import QuerySieve.Planner
import QuerySieve.Problem

/-!
# QuerySieve.Search

Running a request: plan it, count the rows that meet it, read one page of them and load the
relations asked for.

A request that is refused issues no statement, and after a statement that failed no other follows.
-/

namespace QuerySieve

/-- The number in the first row of a count; no row counts as none, and a negative number too. -/
def countedTotal : List Json → Except String Nat
  | [] => .ok 0
  | row :: _ =>
    match row.get? Sql.totalColumn with
    | some (.int n) => if n ≤ Text.int64Max then .ok n.toNat else .error nullTotal
    | _ => .error nullTotal
where
  /-- What the driver says about a total that is no signed 64-bit integer. -/
  nullTotal : String :=
    "Type Error: A null value was encountered while decoding \"" ++ Sql.totalColumn ++ "\""

variable {κ : Type}

/-- Reads one page of the rows of an entity that meet a predicate. -/
def findPage (reg : Registry) (conn : Connection κ) (root : Schema)
    (predicate : Option Sql.Predicate) (graph : FetchGraph) (page : PageRequest)
    (session : Session κ) : Outcome κ (Page Json) :=
  let counting := "counting `" ++ root.name ++ "`"
  match conn.query counting (Sql.selectCount root predicate) session with
  | (.error failure, session) => (.error failure, session)
  | (.ok counted, session) =>
    match countedTotal counted with
    | .error text => (.error ⟨.database text, [counting]⟩, session)
    | .ok total =>
      match conn.query ("selecting `" ++ root.name ++ "`") (Sql.selectPage root predicate page)
          session with
      | (.error failure, session) => (.error failure, session)
      | (.ok rows, session) =>
        match EagerLoad.load reg conn graph.forest root rows session with
        | (.error failure, session) => (.error failure, session)
        | (.ok rows, session) => (.ok ⟨rows, ⟨page.offset, page.limit, total⟩⟩, session)

namespace Planner

/-- Runs a request for a given window, under a given convention. -/
def searchWindow (p : Planner) (conn : Connection κ) (entity : String) (params : Params)
    (page : PageRequest) (naming : Naming) (scope : AccessScope) (session : Session κ) :
    Except SearchError (Page Json) × Session κ :=
  match (p.plan entity params naming scope ({} : Sql.Builder)).1 with
  | .error error => (.error (.refused error), session)
  | .ok plan =>
    match p.registry.schema entity with
    | .error error => (.error (.refused error), session)
    | .ok root =>
      let (result, session) :=
        findPage p.registry conn root plan.predicate plan.graph page session
      (result.mapError .storage, session)

/-- Runs a request, reading the window from its parameters. -/
def search (p : Planner) (conn : Connection κ) (entity : String) (params : Params)
    (scope : AccessScope) (session : Session κ) :
    Except SearchError (Page Json) × Session κ :=
  match PageRequest.ofParams params p.settings.limits with
  | .error error => (.error (.refused error), session)
  | .ok page => p.searchWindow conn entity params page p.settings.naming scope session

end Planner

end QuerySieve
