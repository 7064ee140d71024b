import QuerySieve.Schema.Path

/-!
# QuerySieve.Predicate

What a storage layer has to offer so that filters can be compiled for it.

A `PredicateBuilder σ` makes paths and predicates of its own types. A path starts at a root, goes
along relations and ends at a field; a test of the field makes a predicate, and predicates can be
conjoined. There is no disjunction and no negation. Only starting and following have a state `σ`,
which outlives a compilation: it numbers what it has started, or counts what it has followed.
-/

namespace QuerySieve

/-- The means to build predicates over paths. -/
class PredicateBuilder (σ : Type) (Path Predicate : outParam Type) where
  /-- Starts a path at an entity. -/
  root : Schema → σ → Path × σ
  /-- Follows a relation from the entity that a path leads to. -/
  join : Path → Hop → σ → Path × σ
  /-- Turns to a field of the entity that a path leads to. -/
  get : Path → Field → Path
  /-- Tests what a path leads to. -/
  test : Path → Comparison Value → Predicate
  /-- Both predicates hold. -/
  and : Predicate → Predicate → Predicate

namespace PredicateBuilder

variable {σ Path Predicate : Type} [PredicateBuilder σ Path Predicate]

/-- Follows relations one after the other. -/
def follow : List Hop → Path → σ → Path × σ
  | [], path, s => (path, s)
  | hop :: hops, path, s =>
    let (path, s) := join path hop s
    follow hops path s

/-- The path from an entity along a resolved path to its leaf. -/
def reach (start : Schema) (resolved : ResolvedPath) (s : σ) : Path × σ :=
  let (path, s) := root start s
  let (path, s) := follow resolved.hops path s
  (get σ path resolved.leaf, s)

/-- The conjunction, where the first predicate may be absent. -/
def andOption : Option Predicate → Predicate → Predicate
  | some left, right => and σ left right
  | none, right => right

end PredicateBuilder

end QuerySieve
