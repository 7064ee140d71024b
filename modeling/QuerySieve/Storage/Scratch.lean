import QuerySieve.Storage
import QuerySieve.Text

/-!
# QuerySieve.Storage.Scratch

A scratch database: tables that scripts have created and that hold no rows.

It knows the names of its tables and of their columns, without regard to case, and refuses a
statement that uses another. To any other statement the answer is the one that empty tables give: no
rows, or a number of zero. A script is a sequence of `CREATE TABLE` statements; anything else in it
makes it fail.
-/

namespace QuerySieve

/-- A table without rows. -/
structure ScratchTable where
  /-- In lower case. -/
  name : String
  /-- In lower case. -/
  columns : List String
  deriving DecidableEq, Repr

/-- The tables of a scratch database. -/
abbrev ScratchDatabase := List ScratchTable

namespace ScratchDatabase

/-! ## Scripts -/

/-- The words of a text. -/
def words (cs : List Char) : List String :=
  let spaced := cs.map fun c => if Text.isBlank c then ' ' else c
  ((Text.splitChars ' ' spaced).filter fun w => !w.isEmpty).map String.ofList

/-- A name in lower case, without the quotes around it. -/
def bareName (word : String) : String :=
  .ofList ((word.toList.filter fun c => c != '"' && c != '\x60').map Char.toLower)

/-- Cuts at the commas that stand in no parentheses. -/
def cutItems : Nat → List Char → List (List Char)
  | _, [] => [[]]
  | depth, c :: cs =>
    if c = ',' ∧ depth = 0 then [] :: cutItems depth cs
    else
      match cutItems (if c = '(' then depth + 1 else if c = ')' then depth - 1 else depth) cs with
      | item :: items => (c :: item) :: items
      | [] => [[c]]

/-- What begins an item of a table that is no column. -/
def constraintWords : List String := ["constraint", "primary", "unique", "check", "foreign"]

/-- The column that an item of a table declares. -/
def column? (item : List Char) : Option String :=
  (words item).head?.bind fun word =>
    if constraintWords.contains (Text.lower word) then none else some (bareName word)

/-- The name of the table that a statement creates, from its words before the columns. -/
def createdName? (head : List String) : Option String :=
  match head.map Text.lower with
  | ["create", "table", name] => some (bareName name)
  | ["create", "table", "if", "not", "exists", name] => some (bareName name)
  | _ => none

/-- The table that a statement creates. -/
def created? (statement : List Char) : Option ScratchTable := do
  let name ← createdName? (words (statement.takeWhile (· != '(')))
  let body := (Text.trimChars statement).dropWhile (· != '(')
  if body.length < 2 ∨ body.getLast? ≠ some ')' then none
  let columns := (cutItems 0 (body.drop 1).dropLast).filterMap column?
  if columns = [] then none else return ⟨name, columns⟩

/-- Runs one statement of a script; a blank one does nothing. -/
def runStatement? (db : ScratchDatabase) (statement : List Char) : Option ScratchDatabase :=
  if statement.all Text.isBlank then some db
  else do
    let table ← created? statement
    if db.any fun t => t.name == table.name then none else return db ++ [table]

/-- Runs a script; none if it fails. -/
def run? (db : ScratchDatabase) (script : String) : Option ScratchDatabase :=
  (Text.splitChars ';' script.toList).foldlM runStatement? db

/-! ## Statements -/

/-- The tables of a statement with the names that its columns use for them. -/
def scope (statement : Sql.Statement) : List (String × String) :=
  (statement.table, statement.table)
    :: statement.joins.map fun j => (j.tableAlias?.getD j.table, j.table)

/-- The columns that a statement uses. -/
def columnsOf (statement : Sql.Statement) : List Sql.Column :=
  let projected : Sql.Projection → List Sql.Column
    | .all _ => []
    | .named column _ => [column]
    | .countDistinct column _ => [column]
  statement.projections.flatMap projected
    ++ statement.joins.flatMap (fun j => [j.left, j.right])
    ++ (statement.condition.map fun c => c.leaves.map (·.1)).getD []
    ++ statement.order.toList

/-- The table of this name. -/
def table? (db : ScratchDatabase) (name : String) : Option ScratchTable :=
  db.find? fun t => t.name == Text.lower name

/-- Does a column exist, seen from a statement? -/
def hasColumn (db : ScratchDatabase) (statement : Sql.Statement) (column : Sql.Column) : Bool :=
  match ((scope statement).lookup column.qualifier).bind db.table? with
  | some table => table.columns.contains (Text.lower column.name)
  | none => false

/-- What is missing for a statement, in words. -/
def missing? (db : ScratchDatabase) (statement : Sql.Statement) : Option String :=
  match (scope statement).find? fun t => (db.table? t.2).isNone with
  | some t => some ("no such table: " ++ t.2)
  | none =>
    match (columnsOf statement).find? fun c => !db.hasColumn statement c with
    | some c => some ("no such column: " ++ c.qualifier ++ "." ++ c.name)
    | none => none

/-- The rows that a statement returns over empty tables. -/
def emptyRows (statement : Sql.Statement) : List Json :=
  match statement.projections with
  | [.countDistinct _ name] => [.obj [(name, .int 0)]]
  | _ => []

/-- A connection to a scratch database. -/
def connection : Connection ScratchDatabase where
  answer statement db :=
    match db.missing? statement with
    | some text => (.error ("Query Error: error returned from database: (code: 1) " ++ text), db)
    | none => (.ok (emptyRows statement), db)

end ScratchDatabase

end QuerySieve
