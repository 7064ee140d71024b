import QuerySieve.Error
import QuerySieve.Json

/-!
# QuerySieve.Problem

Problem documents: how a failed search is told to a client.

Each kind of error has an entry in a catalogue with its status, title and code. The detail of an
error on the client's side is its message; an error on the server's side says no more than its
title, so that nothing of the storage or of the access rules leaks (`SearchError.problem_storage`).
-/

namespace QuerySieve

/-- A problem document. -/
structure Problem where
  /-- A reference that identifies the kind of problem. -/
  kind : String
  title : String
  status : Nat
  detail : String
  /-- A reference that identifies this occurrence. -/
  occurrence : String
  code : String
  deriving DecidableEq, Repr

/-- A catalogue entry. -/
structure ProblemKind where
  /-- The declared status; see `ProblemKind.effectiveStatus`. -/
  status : Nat
  title : String
  code : String
  reference : String
  deriving DecidableEq, Repr

/-- The declared status if it has three digits, otherwise that of an internal error. -/
def ProblemKind.effectiveStatus (kind : ProblemKind) : Nat :=
  if 100 ≤ kind.status ∧ kind.status ≤ 999 then kind.status else 500

/-- Is the server at fault? -/
def ProblemKind.isServerError (kind : ProblemKind) : Bool :=
  500 ≤ kind.effectiveStatus && kind.effectiveStatus ≤ 599

/-- Is the request at fault? -/
def ProblemKind.isClientError (kind : ProblemKind) : Bool :=
  400 ≤ kind.effectiveStatus && kind.effectiveStatus ≤ 499

/-- A problem that is not of a catalogued kind. -/
def Problem.plain (status : Nat) (title detail : String) : Problem :=
  ⟨"about:blank", title, status, detail, "", ""⟩

/-- The problem document of a catalogue entry, with a detail. -/
def ProblemKind.problem (kind : ProblemKind) (detail : String) : Problem :=
  { Problem.plain kind.effectiveStatus kind.title detail with
    code := kind.code, kind := kind.reference }

/-- A catalogue entry whose reference ends in its code. -/
def ProblemKind.catalogued (status : Nat) (title code : String) : ProblemKind :=
  ⟨status, title, code, "https://errors.urlfilter.dev/" ++ code⟩

/-- The catalogue entry of a refused request. -/
def FilterError.problemKind : FilterError → ProblemKind
  | unresolved .. => .catalogued 400 "Unknown Filter Field" "FILTER_SCHEMA_RESOLUTION"
  | badValue .. => .catalogued 400 "Invalid Filter Value" "FILTER_VALUE_COERCION"
  | unsupported .. =>
    .catalogued 400 "Unsupported Filter Operator" "FILTER_UNSUPPORTED_OPERATOR"
  | badGraph .. => .catalogued 400 "Invalid Embedded Graph" "FILTER_GRAPH_RESOLUTION"
  | missingPrincipal .. => .catalogued 401 "Unauthorized" "ACCESS_MISSING_PRINCIPAL"
  | unknownRule .. => .catalogued 500 "Access Rule Misconfigured" "ACCESS_UNKNOWN_RULE"

/-- The catalogue entry of a failed search. -/
def SearchError.problemKind : SearchError → ProblemKind
  | refused error => error.problemKind
  | storage _ => .catalogued 500 "Internal Server Error" "SEARCH_STORAGE"

/-- The problem document of a failed search. -/
def SearchError.problem (error : SearchError) (occurrence : String) : Problem :=
  let kind := error.problemKind
  let detail := if kind.isServerError then kind.title else error.message
  { kind.problem detail with occurrence }

/-- The document as JSON. -/
def Problem.toJson (p : Problem) : Json :=
  .obj [("type", .str p.kind), ("title", .str p.title), ("status", .int p.status),
    ("detail", .str p.detail), ("instance", .str p.occurrence), ("code", .str p.code)]

/-- A failing storage is told alike, whatever failed and however. -/
theorem SearchError.problem_storage (a b : StorageFailure) (occurrence : String) :
    (storage a).problem occurrence = (storage b).problem occurrence := by
  simp [problem, problemKind, ProblemKind.isServerError, ProblemKind.effectiveStatus,
    ProblemKind.catalogued]

end QuerySieve
