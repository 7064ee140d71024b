import QuerySieve.Filter

/-!
# QuerySieve.Error

What can be wrong with a request, as causes, and the sentence that tells each of them.

A `FilterError` refuses the whole request: there is no partial predicate and no fall-back to an
unfiltered search. Its parts are causes too (`PathFault`, `Expectation`, `GraphFault`), so that a
statement about failing can name the cause and not a text. The `described` constructors carry the
words of a caller who refuses a request for a reason of its own.
-/

namespace QuerySieve

/-- Why a path or a model cannot be used. -/
inductive PathFault
  /-- No entity has this name. -/
  | unknownEntity
  /-- The path has no segment. -/
  | emptyPath
  /-- The entity reached has no field of this name. -/
  | unknownField (field entity : String)
  /-- A segment before the last one is not a relation of the entity reached. -/
  | notTraversable (segment entity : String)
  /-- The last segment is a relation. -/
  | relationLeaf (segment : String)
  /-- A field that was to be followed is not a relation. -/
  | notRelation
  /-- An entity lacks its table or its primary key. -/
  | unnamedTable
  /-- A relation leads to an entity that the model does not have. -/
  | danglingTarget (target : String)
  /-- A relation lacks one of its keys. -/
  | unnamedKey
  /-- Another reason, in words. -/
  | described (reason : String)
  deriving DecidableEq, Repr

/-- The reason in words. -/
def PathFault.text : PathFault → String
  | unknownEntity => "unknown entity"
  | emptyPath => "empty field path"
  | unknownField field entity => "unknown field `" ++ field ++ "` on `" ++ entity ++ "`"
  | notTraversable segment entity =>
    "`" ++ segment ++ "` is not a relation of `" ++ entity ++ "`"
  | relationLeaf segment => "`" ++ segment ++ "` is a relation, not a comparable field"
  | notRelation => "not a relation"
  | unnamedTable => "table and primary key must be set"
  | danglingTarget target => "relation targets unknown entity `" ++ target ++ "`"
  | unnamedKey => "relation keys must not be empty"
  | described reason => reason

/-- What a value should have been. -/
inductive Expectation
  | integer
  | boolean
  | twoIntegers
  | someValue
  | naturalNumber
  /-- A page number whose offset is a signed 64-bit integer. -/
  | reachablePage
  | described (text : String)
  deriving DecidableEq, Repr

/-- The expectation in words. -/
def Expectation.text : Expectation → String
  | integer => "an integer"
  | boolean => "`true` or `false`"
  | twoIntegers => "exactly two comma-separated integers"
  | someValue => "a value"
  | naturalNumber => "a non-negative integer"
  | reachablePage => "a page whose offset fits a 64-bit signed integer"
  | described text => text

/-- Why an operator does not apply to a field. -/
inductive Restriction
  | patternNeedsText
  | rangeNeedsIntegers
  | described (text : String)
  deriving DecidableEq, Repr

/-- The restriction in words. -/
def Restriction.text : Restriction → String
  | patternNeedsText => "pattern matching needs a string field"
  | rangeNeedsIntegers => "ranges need an integral field"
  | described text => text

/-- Why the text of a graph is refused. -/
inductive GraphFault
  /-- No name stands where one has to; the offset counts bytes of the text. -/
  | expectedName (offset : Nat)
  | unknownRelation (name entity : String)
  | notRelation (name entity : String)
  /-- The relation leads to an entity that the model does not have. -/
  | missingTarget (target : String)
  | unclosed
  /-- Something follows a complete graph. -/
  | trailing (rest : String)
  | described (reason : String)
  deriving DecidableEq, Repr

/-- A request, model or scope that is refused. -/
inductive FilterError
  /-- A path that leads nowhere, or a model that is not usable at a path. -/
  | unresolved (path : String) (fault : PathFault)
  /-- A value that is not of the kind its place demands. -/
  | badValue (field value : String) (expected : Expectation)
  /-- An operator that the type of the field does not have. -/
  | unsupported (field : String) (operator : Operator) (restriction : Restriction)
  /-- A graph that does not parse or names what is no relation. -/
  | badGraph (graph : String) (fault : GraphFault)
  /-- A permission refers to an access rule that is not registered. -/
  | unknownRule (rule : String)
  /-- An access rule needs a principal and there is none. -/
  | missingPrincipal (rule : String)
  deriving DecidableEq, Repr

/-- The sentence about an unusable path. -/
def unresolvedText (path : String) (fault : PathFault) : String :=
  "cannot resolve `" ++ path ++ "`: " ++ fault.text

/-- The reason in words. -/
def GraphFault.text : GraphFault → String
  | expectedName offset => "expected a relation name at offset " ++ toString offset
  | unknownRelation name entity => "unknown relation `" ++ name ++ "` on `" ++ entity ++ "`"
  | notRelation name entity => "`" ++ name ++ "` on `" ++ entity ++ "` is not a relation"
  | missingTarget target => unresolvedText target .unknownEntity
  | unclosed => "missing `)`"
  | trailing rest => "unexpected `" ++ rest ++ "`"
  | described reason => reason

/-- The sentence that tells the error. -/
def FilterError.message : FilterError → String
  | unresolved path fault => unresolvedText path fault
  | badValue field value expected =>
    "invalid value `" ++ value ++ "` for `" ++ field ++ "`: expected " ++ expected.text
  | unsupported field operator restriction =>
    "operator `" ++ operator.name ++ "` is not supported on `" ++ field ++ "`: "
      ++ restriction.text
  | badGraph graph fault => "invalid embedded graph `" ++ graph ++ "`: " ++ fault.text
  | unknownRule rule => "unknown access rule: " ++ rule
  | missingPrincipal rule => "access rule `" ++ rule ++ "` requires an authenticated principal"

/-- What went wrong while rows were read. -/
inductive StorageCause
  /-- What the database or its driver said. -/
  | database (text : String)
  /-- A relation to load is no field of the entity. -/
  | unknownField (field entity : String)
  /-- A relation to load is another kind of field. -/
  | notRelation (field entity : String)
  /-- The model lacks an entity. -/
  | model (error : FilterError)
  deriving DecidableEq, Repr

/-- The cause in words. -/
def StorageCause.text : StorageCause → String
  | database text => text
  | unknownField field entity => "`" ++ field ++ "` is not a field of `" ++ entity ++ "`"
  | notRelation field entity => "`" ++ field ++ "` is not a relation of `" ++ entity ++ "`"
  | model error => error.message

/-- A failure of the storage: its cause, and what was being done, innermost first. -/
structure StorageFailure where
  cause : StorageCause
  contexts : List String := []
  deriving DecidableEq, Repr

/-- The contexts and the cause, outermost first. -/
def StorageFailure.chain (failure : StorageFailure) : String :=
  ": ".intercalate (failure.contexts.reverse ++ [failure.cause.text])

/-- A failed search: the request is refused, or the storage failed. -/
inductive SearchError
  | refused (error : FilterError)
  | storage (failure : StorageFailure)
  deriving DecidableEq, Repr

/-- The sentence that tells the error. -/
def SearchError.message : SearchError → String
  | refused error => error.message
  | storage failure => "storage failure: " ++ failure.chain

end QuerySieve
