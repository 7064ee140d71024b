import QuerySieve.Sql.Statement

/-!
# QuerySieve.Sql.Dialect

Statements as text, for three kinds of database.

A statement is first laid out as `Fragment`s, text that depends on names only and parameters in
their places (`Statement.fragments`). From them come the text with placeholders, the values in the
order of the placeholders, and the text with the values written in. So a value can never be read as
a part of the text with placeholders.
-/

namespace QuerySieve.Sql

/-- A kind of database. -/
inductive Dialect
  | sqlite
  | postgres
  | mysql
  deriving DecidableEq, Repr

/-- A piece of a statement. -/
inductive Fragment
  | text (s : String)
  | param (p : Param)
  deriving DecidableEq, Repr

namespace Dialect

/-- The quotation mark of names. -/
def nameQuote : Dialect → Char
  | mysql => '`'
  | sqlite | postgres => '"'

/-- A name in quotation marks; a mark inside is doubled. -/
def quoteName (d : Dialect) (name : String) : String :=
  let q := d.nameQuote
  .ofList (q :: name.toList.flatMap (fun c => if c = q then [q, q] else [c]) ++ [q])

/-- A qualified column. -/
def column (d : Dialect) (c : Column) : String :=
  d.quoteName c.qualifier ++ "." ++ d.quoteName c.name

/-- A character with a backslash before it where it needs one. -/
def escapeChar (c : Char) : List Char :=
  if c = '\\' then ['\\', '\\']
  else if c = '"' then ['\\', '"']
  else if c = '\'' then ['\\', '\'']
  else if c.toNat = 0 then ['\\', '0']
  else if c.toNat = 8 then ['\\', 'b']
  else if c = '\t' then ['\\', 't']
  else if c.toNat = 0x1A then ['\\', 'z']
  else if c = '\n' then ['\\', 'n']
  else if c = '\r' then ['\\', 'r']
  else [c]

/-- A text as a literal. -/
def quoteText (d : Dialect) (s : String) : String :=
  let escaped := s.toList.flatMap fun c =>
    match d with
    | sqlite => if c = '\'' then ['\'', '\''] else [c]
    | postgres | mysql => escapeChar c
  let mark := if d = postgres ∧ escaped.contains '\\' then ['E'] else []
  .ofList (mark ++ '\'' :: escaped ++ ['\''])

/-- A value as a literal. -/
def literal (d : Dialect) : Param → String
  | .int n => toString n
  | .real x => x.text
  | .bool b => if b then "TRUE" else "FALSE"
  | .text s => d.quoteText s

/-- The mark for the value of this number, counted from 1. -/
def placeholder (d : Dialect) (number : Nat) : String :=
  match d with
  | postgres => "$" ++ toString number
  | sqlite | mysql => "?"

/-- The text with placeholders, the next of which has this number. -/
def placeholdersFrom (d : Dialect) : Nat → List Fragment → String
  | _, [] => ""
  | number, .text s :: rest => s ++ placeholdersFrom d number rest
  | number, .param _ :: rest => d.placeholder number ++ placeholdersFrom d (number + 1) rest

/-- The text with the values written in. -/
def inlined (d : Dialect) : List Fragment → String
  | [] => ""
  | .text s :: rest => s ++ inlined d rest
  | .param p :: rest => d.literal p ++ inlined d rest

end Dialect

/-- The values in their order. -/
def Fragment.values (fragments : List Fragment) : List Param :=
  fragments.filterMap fun
    | .text _ => none
    | .param p => some p

/-- The values with a comma between them. -/
def paramList : List Param → List Fragment
  | [] => []
  | [p] => [.param p]
  | p :: ps => .param p :: .text ", " :: paramList ps

/-- A test. To be in an empty list is an equality that never holds. -/
def testFragments (d : Dialect) (column : Column) : Comparison Param → List Fragment
  | .equal p => [.text (d.column column ++ " = "), .param p]
  | .like pattern => [.text (d.column column ++ " LIKE "), .param (.text pattern)]
  | .isIn [] => [.param (.int 1), .text " = ", .param (.int 2)]
  | .isIn ps => .text (d.column column ++ " IN (") :: paramList ps ++ [.text ")"]
  | .between lower upper =>
    [.text (d.column column ++ " BETWEEN "), .param (.int lower), .text " AND ",
      .param (.int upper)]

/-- Fragments between parentheses. -/
def parenthesized (fragments : List Fragment) : List Fragment :=
  .text "(" :: fragments ++ [.text ")"]

namespace Condition

/-- Is this a test of a range? -/
def isRange : Condition → Bool
  | test _ (.between ..) => true
  | _ => false

/-- Does this need parentheses as the right operand of a conjunction? -/
def needsParenthesesOnRight : Condition → Bool
  | and .. => true
  | other => other.isRange

/-- A condition. A range that is an operand stands in parentheses, and so does a conjunction that is
the right operand. -/
def fragments (d : Dialect) : Condition → List Fragment
  | test column comparison => testFragments d column comparison
  | and left right =>
    (if left.isRange then parenthesized (left.fragments d) else left.fragments d)
      ++ .text " AND " ::
        (if right.needsParenthesesOnRight then parenthesized (right.fragments d)
          else right.fragments d)

end Condition

/-- A selected expression. -/
def Projection.text (d : Dialect) : Projection → String
  | all table => d.quoteName table ++ ".*"
  | named column name => d.column column ++ " AS " ++ d.quoteName name
  | countDistinct column name =>
    "COUNT(DISTINCT " ++ d.column column ++ ") AS " ++ d.quoteName name

/-- A join with a blank before it. -/
def Join.text (d : Dialect) (j : Join) : String :=
  " INNER JOIN " ++ d.quoteName j.table
    ++ (match j.tableAlias? with
      | some name => " AS " ++ d.quoteName name
      | none => "")
    ++ " ON " ++ d.column j.left ++ " = " ++ d.column j.right

namespace Statement

/-- What stands before the condition. -/
def head (d : Dialect) (s : Statement) : String :=
  "SELECT " ++ (if s.distinct then "DISTINCT " else "")
    ++ ", ".intercalate (s.projections.map (·.text d))
    ++ " FROM " ++ d.quoteName s.table ++ String.join (s.joins.map (·.text d))

/-- The pieces of a statement in their order. -/
def fragments (d : Dialect) (s : Statement) : List Fragment :=
  .text (s.head d)
    :: (match s.condition with
      | some condition => .text " WHERE " :: condition.fragments d
      | none => [])
    ++ (match s.order with
      | some column => [.text (" ORDER BY " ++ d.column column ++ " ASC")]
      | none => [])
    ++ (match s.window with
      | some window =>
        [.text " LIMIT ", .param (.int window.limit), .text " OFFSET ",
          .param (.int window.offset)]
      | none => [])

/-- The text with placeholders. -/
def text (d : Dialect) (s : Statement) : String := d.placeholdersFrom 1 (s.fragments d)

/-- The values in the order of the placeholders. -/
def values (d : Dialect) (s : Statement) : List Param := Fragment.values (s.fragments d)

/-- The text with the values written in. -/
def inlined (d : Dialect) (s : Statement) : String := d.inlined (s.fragments d)

end Statement

end QuerySieve.Sql
