import QuerySieve.Naming
import QuerySieve.Predicate
import QuerySieve.Text.Decimal

/-!
# QuerySieve.Compiler

From the filters of a request to one predicate.

Each filter's path is resolved against the model, its value is coerced to the type of the leaf, and
a builder is asked for the test. The predicates of all filters are conjoined from left to right. The
first filter that is not well-typed refuses the request; the builder's state is kept even then,
because a path may have been started before its value turned out bad.
-/

namespace QuerySieve

/-- The value that a piece of text denotes in a field of this type. A strict reader accepts `true`
and `false` only, a permissive one takes everything else for `false`. -/
def ValueType.coerce (strict : Bool) (type : ValueType) (piece : String) :
    Except Expectation Value :=
  match type with
  | .long =>
    match Text.int64? (Text.trim piece) with
    | some n => .ok (.long n)
    | none => .error .integer
  | .boolean =>
    if strict then
      let word := Text.lower (Text.trim piece)
      if word = "true" then .ok (.boolean true)
      else if word = "false" then .ok (.boolean false)
      else .error .boolean
    else .ok (.boolean (Text.lower piece = "true"))
  | .string | .other => .ok (.text piece)

namespace FilterExpression

/-- The values of the given pieces, or the first that is not of the type. -/
def coerceAll (e : FilterExpression) (strict : Bool) (type : ValueType) :
    List String → Except FilterError (List Value)
  | [] => .ok []
  | piece :: pieces =>
    match type.coerce strict piece with
    | .error expected => .error (.badValue e.field piece expected)
    | .ok value => (e.coerceAll strict type pieces).map (value :: ·)

/-- The test that the filter makes of a leaf of this type. Patterns are for text and ranges for
integers. Equality coerces every piece and compares with the first. -/
def comparison (e : FilterExpression) (strict : Bool) (type : ValueType) :
    Except FilterError (Comparison Value) :=
  match e.operator with
  | .like =>
    if type = .string then .ok (.like ("%" ++ e.raw ++ "%"))
    else .error (.unsupported e.field .like .patternNeedsText)
  | .between =>
    if type = .long then
      match e.coerceAll strict type e.pieces with
      | .ok [.long lower, .long upper] => .ok (.between lower upper)
      | .ok _ => .error (.badValue e.field e.raw .twoIntegers)
      | .error error => .error error
    else .error (.unsupported e.field .between .rangeNeedsIntegers)
  | .isIn => (e.coerceAll strict type e.pieces).map .isIn
  | .eq =>
    match e.coerceAll strict type e.pieces with
    | .ok (value :: _) => .ok (.equal value)
    | .ok [] => .error (.badValue e.field e.raw .someValue)
    | .error error => .error error

end FilterExpression

/-- Compiles filters against one root entity. -/
structure Compiler where
  registry : Registry
  root : Schema
  naming : Naming := .v1
  strictBooleans : Bool := false

namespace Compiler

variable {σ Path Predicate : Type} [PredicateBuilder σ Path Predicate]

/-- The predicate of one filter. -/
def compileOne (c : Compiler) (e : FilterExpression) (s : σ) :
    Except FilterError Predicate × σ :=
  match c.registry.resolve c.root e.path with
  | .error error => (.error error, s)
  | .ok resolved =>
    let (path, s) := PredicateBuilder.reach c.root resolved s
    ((e.comparison c.strictBooleans resolved.type).map (PredicateBuilder.test σ path), s)

/-- The conjunction of what is there already and the predicates of the filters. -/
def compileOnto (c : Compiler) :
    Option Predicate → List FilterExpression → σ → Except FilterError (Option Predicate) × σ
  | acc, [], s => (.ok acc, s)
  | acc, e :: es, s =>
    match c.compileOne e s with
    | (.error error, s) => (.error error, s)
    | (.ok predicate, s) =>
      c.compileOnto (some (PredicateBuilder.andOption (σ := σ) acc predicate)) es s

/-- The predicate of a list of filters; none for the empty list. -/
def compileAll (c : Compiler) (es : List FilterExpression) (s : σ) :
    Except FilterError (Option Predicate) × σ :=
  c.compileOnto none es s

/-- The predicate of the filters among the parameters; none if no parameter is a filter. -/
def compile (c : Compiler) (params : Params) (s : σ) :
    Except FilterError (Option Predicate) × σ :=
  c.compileAll (c.naming.decompose params) s

end Compiler

/-- Compiles the filters among the parameters, reading booleans permissively. -/
def compileFilter {σ Path Predicate : Type} [PredicateBuilder σ Path Predicate]
    (params : Params) (registry : Registry) (root : Schema) (naming : Naming) (s : σ) :
    Except FilterError (Option Predicate) × σ :=
  { registry, root, naming : Compiler }.compile params s

end QuerySieve
