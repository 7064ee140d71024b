import QuerySieve.Predicate

/-!
# QuerySieve.Description

Predicates for people: the tree of tests that a request amounts to, in the model's own names.

A `Describer` builds descriptions and counts the relations that it has followed.
-/

namespace QuerySieve

/-- A field by its name and the relations on the way to it. -/
structure FieldRef where
  joins : List String
  /-- None while the reference is to an entity. -/
  field : Option String
  deriving DecidableEq, Repr

namespace FieldRef

/-- The reference of a dotted path, whose last segment is the field. -/
def ofPath (path : String) : FieldRef :=
  let segments := Text.split '.' path
  ⟨segments.dropLast, segments.getLast?⟩

/-- The dotted path. -/
def text (r : FieldRef) : String := Text.join '.' (r.joins ++ r.field.toList)

end FieldRef

/-- A described predicate. -/
inductive Description
  | leaf (field : FieldRef) (comparison : Comparison Value)
  | and (left right : Description)
  deriving DecidableEq, Repr

/-- The test in words. -/
def Comparison.describe (field : String) : Comparison Value → String
  | equal value => field ++ " = " ++ value.display
  | like pattern => field ++ " like '" ++ pattern ++ "'"
  | isIn values => field ++ " in (" ++ ", ".intercalate (values.map Value.display) ++ ")"
  | between lower upper =>
    field ++ " between " ++ toString lower ++ " and " ++ toString upper

namespace Description

/-- The tests from left to right. -/
def conjuncts : Description → List (FieldRef × Comparison Value)
  | leaf field comparison => [(field, comparison)]
  | and left right => left.conjuncts ++ right.conjuncts

/-- The predicate in words; both sides of a conjunction stand in parentheses. -/
def text : Description → String
  | leaf field comparison => comparison.describe field.text
  | and left right => "(" ++ left.text ++ ") and (" ++ right.text ++ ")"

end Description

/-- Builds descriptions. -/
structure Describer where
  /-- How many relations have been followed. -/
  traversals : Nat := 0
  deriving DecidableEq, Repr

instance : PredicateBuilder Describer FieldRef Description where
  root _ s := (⟨[], none⟩, s)
  join path hop s := (⟨path.joins ++ [hop.name], none⟩, ⟨s.traversals + 1⟩)
  get path field := ⟨path.joins, some field.name⟩
  test := .leaf
  and := .and

end QuerySieve
