import QuerySieve.Text

/-!
# QuerySieve.Filter

Filters as a request states them: a field path, an operator and the value as text.

`FilterExpression` is raw, nothing in it has been checked against a model. Once a path is resolved
and the value coerced, what is left is a `Comparison`, with values of one of three kinds.
-/

namespace QuerySieve

/-- How a field is compared. -/
inductive Operator
  | eq
  | like
  | isIn
  | between
  deriving DecidableEq, Repr

/-- The operator's name in requests. -/
def Operator.name : Operator → String
  | eq => "eq"
  | like => "like"
  | isIn => "in"
  | between => "between"

/-- The operator of this name; every other word means equality. -/
def Operator.ofName (name : String) : Operator :=
  if name = "like" then like
  else if name = "in" then isIn
  else if name = "between" then between
  else eq

@[simp] theorem Operator.ofName_name (op : Operator) : ofName op.name = op := by
  cases op <;> decide

/-- A coerced value. -/
inductive Value
  | long (n : Int)
  | boolean (b : Bool)
  | text (s : String)
  deriving DecidableEq, Repr

/-- The value in a description: text between quotes, as it is. -/
def Value.display : Value → String
  | long n => toString n
  | boolean b => if b then "true" else "false"
  | text s => "'" ++ s ++ "'"

/-- A test of one column or field against values of type `α`. -/
inductive Comparison (α : Type)
  | equal (value : α)
  | like (pattern : String)
  | isIn (values : List α)
  | between (lower upper : Int)
  deriving DecidableEq, Repr

/-- The same test with other values. -/
def Comparison.map {α β : Type} (f : α → β) : Comparison α → Comparison β
  | equal value => equal (f value)
  | like pattern => like pattern
  | isIn values => isIn (values.map f)
  | between lower upper => between lower upper

/-- One filter of a request. -/
structure FilterExpression where
  /-- The segments of the dotted path. -/
  path : List String
  operator : Operator
  /-- The value as it was written. -/
  raw : String
  deriving DecidableEq, Repr

namespace FilterExpression

/-- A filter on a dotted path. -/
def ofField (field : String) (operator : Operator) (raw : String) : FilterExpression :=
  ⟨Text.split '.' field, operator, raw⟩

/-- The path with its dots. -/
def field (e : FilterExpression) : String := Text.join '.' e.path

/-- The comma-separated pieces of the value; there is always at least one. -/
def pieces (e : FilterExpression) : List String := Text.split ',' e.raw

@[simp] theorem field_ofField (field raw : String) (op : Operator) :
    (ofField field op raw).field = field := Text.join_split '.' field

theorem pieces_ne_nil (e : FilterExpression) : e.pieces ≠ [] := Text.split_ne_nil _ _

end FilterExpression

end QuerySieve
