import QuerySieve.Json
import QuerySieve.Sql.Query

/-!
# QuerySieve.Storage

Connections to a database, and what happens on them.

A connection answers a statement with rows or with a failure, and may change its own state with each
answer. A `Session` records every statement that was issued, so that a statement about a search can
speak of what it asked the database and in which order.
-/

namespace QuerySieve

/-- The answer to a statement: rows, or what the database said instead. -/
abbrev Response := Except String (List Json)

/-- A connection with state of type `κ`. -/
structure Connection (κ : Type) where
  answer : Sql.Statement → κ → Response × κ

/-- A connection in use. -/
structure Session (κ : Type) where
  state : κ
  /-- The statements issued so far, in order. -/
  issued : List Sql.Statement := []

/-- The outcome of something done in a session. -/
abbrev Outcome (κ α : Type) := Except StorageFailure α × Session κ

namespace Connection

variable {κ : Type}

/-- Issues a statement; a failure carries what was being done. -/
def query (conn : Connection κ) (context : String) (statement : Sql.Statement)
    (session : Session κ) : Outcome κ (List Json) :=
  let (response, state) := conn.answer statement session.state
  let session : Session κ := ⟨state, session.issued ++ [statement]⟩
  match response with
  | .ok rows => (.ok rows, session)
  | .error text => (.error ⟨.database text, [context]⟩, session)

end Connection

/-- One line of a script: the rows of an answer, or the words of a failure. -/
inductive ScriptLine
  | rows (rows : List Json)
  | failure (text : String)

/-- What is said when a script has come to its end. -/
def scriptEndText : String :=
  "Query Error: `query_results` buffer is empty.: `query_results` buffer is empty."

/-- A connection that answers from a script, whatever it is asked. -/
def Connection.scripted : Connection (List ScriptLine) where
  answer _
    | [] => (.error scriptEndText, [])
    | .rows rows :: rest => (.ok rows, rest)
    | .failure text :: rest => (.error ("Custom Error: " ++ text), rest)

end QuerySieve
