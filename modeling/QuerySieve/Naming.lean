import QuerySieve.Dict
import QuerySieve.Filter

/-!
# QuerySieve.Naming

Which parameters of a request are filters, and how a parameter's name tells the field and the
operator.

There are two conventions. With `v1` a filter is `f_<path>` and its operator is the value of the
companion parameter `f_<path>_op`; with `v2` it is `<path>_<operator>`. A parameter with a blank
value is no filter.
-/

namespace QuerySieve

/-- The parameters of a request. Of parameters with one name the last counts. -/
abbrev Params := Dict String

/-- A convention for the names of filter parameters. -/
inductive Naming
  | v1
  | v2
  deriving DecidableEq, Repr

namespace Naming

/-- The name of a convention. -/
def name : Naming → String
  | v1 => "v1"
  | v2 => "v2"

/-- The convention of this name, in any case. -/
def ofName? (name : String) : Option Naming :=
  let lowered := Text.lower name
  if lowered = "v1" then some v1 else if lowered = "v2" then some v2 else none

/-- The sentence about a name that no convention has. -/
def unknownMessage (name : String) : String :=
  "unknown url mapper `" ++ Text.lower name ++ "` (expected v1 or v2)"

/-- What the name of a `v1` filter starts with. -/
def filterMark : String := "f_"

/-- What the name of the companion of a `v1` filter ends with. -/
def operatorMark : String := "_op"

/-- Does a parameter of this name state a filter? -/
def isFilter (convention : Naming) (name : String) : Bool :=
  match convention with
  | v1 => Text.startsWith filterMark name && !Text.endsWith operatorMark name
  | v2 => Text.hasChar '_' name

/-- The parameters that state filters, in name order. -/
def selected (convention : Naming) (params : Params) : List (String × String) :=
  params.entries.filter fun p => convention.isFilter p.1 && !Text.isBlankText p.2

/-- The field and the operator's word for a parameter of this name. -/
def extract (convention : Naming) (name : String) (params : Params) : String × String :=
  match convention with
  | v1 =>
    ((Text.dropStart? filterMark name).getD name,
      (params.get? (name ++ operatorMark)).getD Operator.eq.name)
  | v2 =>
    match Text.split '_' name with
    | field :: operator :: _ => (field, operator)
    | [field] => (field, "")
    | [] => ("", "")

/-- The filters of a request, in the order of their parameters' names. -/
def decompose (convention : Naming) (params : Params) : List FilterExpression :=
  (convention.selected params).map fun (name, raw) =>
    let (field, operator) := convention.extract name params
    .ofField field (.ofName operator) raw

end Naming

end QuerySieve
