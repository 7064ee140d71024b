import QuerySieve.Error

/-!
# QuerySieve.Access

Access rules: filters that a permission forces on every request, whatever the request says.

A rule is looked up by the name that the permission gives. The rule `all` forces nothing, the rule
`user` keeps the rows whose `user.id` is that of the principal and needs a principal for that.
-/

namespace QuerySieve

/-- What a caller may do, and under which access rule. -/
structure Permission where
  name : String
  ruleName : String
  deriving DecidableEq, Repr

/-- An authenticated caller. -/
structure Principal where
  id : Int
  username : String
  deriving DecidableEq, Repr

/-- Who asks, and with which permission. -/
structure AccessScope where
  permission : Permission
  /-- None for an anonymous caller. -/
  principal : Option Principal
  deriving DecidableEq, Repr

/-- An access rule. -/
inductive AccessRule
  | all
  | user
  deriving DecidableEq, Repr

/-- The name that permissions refer to. -/
def AccessRule.name : AccessRule → String
  | all => "all"
  | user => "user"

/-- The rule of this name. -/
def AccessRule.ofName? (name : String) : Option AccessRule :=
  [("all", all), ("user", user)].lookup name

/-- A forced filter, before its operator is read. -/
structure AccessFilter where
  field : String
  operator : String
  value : String
  deriving DecidableEq, Repr

namespace AccessFilter

/-- The filter of an entry: what stands after the last `_` of the key is the operator, and without
a `_` it is `=`. -/
def ofEntry (key value : String) : AccessFilter :=
  match (Text.split '_' key).reverse with
  | operator :: first :: rest =>
    ⟨Text.join '_' (rest.reverse ++ [first]), operator, value⟩
  | _ => ⟨key, "=", value⟩

/-- The filter with its path and operator read. -/
def toExpression (f : AccessFilter) : FilterExpression :=
  .ofField f.field (.ofName f.operator) f.value

end AccessFilter

/-- The entries that a rule forces on a caller. -/
def AccessRule.entries (rule : AccessRule) (principal : Option Principal) :
    Except FilterError (List (String × String)) :=
  match rule, principal with
  | all, _ => .ok []
  | user, some p => .ok [("user.id_=", toString p.id)]
  | user, none => .error (.missingPrincipal rule.name)

/-- The registered rules. -/
structure AccessRules where
  rules : List AccessRule := [.all, .user]
  deriving DecidableEq, Repr

namespace AccessRules

/-- The rule of this name, if it is registered. -/
def get? (rules : AccessRules) (name : String) : Option AccessRule :=
  rules.rules.find? fun rule => rule.name = name

/-- The filters that a scope is subject to. -/
def resolve (rules : AccessRules) (scope : AccessScope) :
    Except FilterError (List AccessFilter) :=
  match rules.get? scope.permission.ruleName with
  | none => .error (.unknownRule scope.permission.ruleName)
  | some rule =>
    (rule.entries scope.principal).map fun entries =>
      entries.map fun (key, value) => .ofEntry key value

end AccessRules

end QuerySieve
