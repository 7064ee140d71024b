import QuerySieve.Access
import QuerySieve.Compiler
import QuerySieve.Graph.Embedded
import QuerySieve.Settings

/-!
# QuerySieve.Planner

From a request to a plan: the predicate that its rows meet, and the graph of relations to load.

The filters forced by the access rule are compiled first and conjoined before those of the request.
A request can add conditions to them but has no way to lift one.
-/

namespace QuerySieve

/-- What a request amounts to. -/
structure SearchPlan (Predicate : Type) where
  /-- None if the rows are not filtered at all. -/
  predicate : Option Predicate
  graph : FetchGraph

/-- What requests are planned with. -/
structure Planner where
  registry : Registry
  rules : AccessRules := {}
  settings : SearchSettings := {}

namespace Planner

variable {σ Path Predicate : Type} [PredicateBuilder σ Path Predicate]

/-- The compiler for an entity under a convention. -/
def compiler (p : Planner) (root : Schema) (naming : Naming) : Compiler :=
  { registry := p.registry, root, naming, strictBooleans := p.settings.strictBooleans }

/-- The filters that a scope is subject to. -/
def forced (p : Planner) (scope : AccessScope) : Except FilterError (List FilterExpression) :=
  (p.rules.resolve scope).map fun filters => filters.map AccessFilter.toExpression

/-- The forced predicate and the request's own, as far as there are any. -/
def combine (forced own : Option Predicate) : Option Predicate :=
  match forced, own with
  | some f, some o => some (PredicateBuilder.and σ f o)
  | some f, none => some f
  | none, o => o

/-- The predicate of a request under a scope. -/
def predicate (c : Compiler) (forced : List FilterExpression) (params : Params) (s : σ) :
    Except FilterError (Option Predicate) × σ :=
  match c.compileAll forced s with
  | (.error error, s) => (.error error, s)
  | (.ok forced, s) =>
    match c.compile params s with
    | (.error error, s) => (.error error, s)
    | (.ok own, s) => (.ok (combine (σ := σ) forced own), s)

/-- Plans a request. -/
def plan (p : Planner) (entity : String) (params : Params) (naming : Naming) (scope : AccessScope)
    (s : σ) : Except FilterError (SearchPlan Predicate) × σ :=
  match p.registry.schema entity with
  | .error error => (.error error, s)
  | .ok root =>
    match p.forced scope with
    | .error error => (.error error, s)
    | .ok forced =>
      match predicate (p.compiler root naming) forced params s with
      | (.error error, s) => (.error error, s)
      | (.ok predicate, s) =>
        ((FetchGraph.ofParams p.registry root params).map fun graph => ⟨predicate, graph⟩, s)

end Planner

end QuerySieve
