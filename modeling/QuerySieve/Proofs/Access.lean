import QuerySieve.Description
import QuerySieve.Planner
import QuerySieve.Proofs.Compilation
import QuerySieve.Proofs.Sql.Scope
import QuerySieve.Proofs.Text

/-!
# QuerySieve.Proofs.Access

**A request can neither lift nor weaken its access filter.**

Under the rule `user` a plan starts with the test of `user.id` against the principal's id, and all
that the parameters add is conjoined to it:

* the forced filter is read back from its key and its numeral (`Planner.forced_eq_of_user`,
  `coerce_toString_long`), for every signed 64-bit id;
* described, it is the first conjunct, and the others are those of the parameters alone, because
  what a `Describer` describes does not depend on its state (`Describer.compileOnto_congr`);
* in a statement its joins come first, because conjoining never moves a join
  (`Sql.prefix_foldl_pushJoin`).
-/

namespace QuerySieve

/-! ### The forced filter -/

/-- The filter that the rule `user` forces on the principal with this id. -/
def userFilter (id : Int) : FilterExpression := ⟨["user", "id"], .eq, toString id⟩

theorem pieces_userFilter (id : Int) : (userFilter id).pieces = [toString id] :=
  Text.split_toString id

/-- The equality with a value of one piece. -/
theorem FilterExpression.comparison_eq_ok_iff {e : FilterExpression} {piece : String}
    {strict : Bool} {type : ValueType} {comparison : Comparison Value}
    (hoperator : e.operator = .eq) (hpieces : e.pieces = [piece]) :
    e.comparison strict type = .ok comparison ↔
      ∃ value, type.coerce strict piece = .ok value ∧ comparison = .equal value := by
  unfold FilterExpression.comparison
  rw [hoperator, hpieces]
  cases hcoerce : type.coerce strict piece with
  | error expected => simp [FilterExpression.coerceAll, hcoerce]
  | ok value => simp [FilterExpression.coerceAll, hcoerce, Except.map, eq_comm]

/-- In an integer field the id is compared exactly. -/
theorem coerce_toString_long {id : Int} (hid : Text.int64Min ≤ id ∧ id ≤ Text.int64Max)
    (strict : Bool) : ValueType.long.coerce strict (toString id) = .ok (.long id) := by
  rw [ValueType.coerce, Text.trim_toString, Text.int64?_toString hid]

namespace Planner

variable {p : Planner} {entity : String} {naming : Naming} {scope : AccessScope}

theorem forced_eq_of_user {principal : Principal}
    (hrule : p.rules.get? scope.permission.ruleName = some .user)
    (hprincipal : scope.principal = some principal) :
    p.forced scope = .ok [userFilter principal.id] := by
  -- the operator is what stands after the last mark of the key, and `=` is read as equality
  have hentry : ∀ value, AccessFilter.ofEntry "user.id_=" value = ⟨"user.id", "=", value⟩ := by
    intro value
    have hsplit : Text.split '_' "user.id_=" = ["user.id", "="] := by decide
    rw [AccessFilter.ofEntry, hsplit]
    rfl
  have hpath : Text.split '.' "user.id" = ["user", "id"] := by decide
  simp only [forced, AccessRules.resolve, hrule, hprincipal, AccessRule.entries, Except.map,
    List.map_cons, List.map_nil, hentry, AccessFilter.toExpression, FilterExpression.ofField, hpath]
  rfl

/-- Without a rule of the name, or without the principal that the rule needs, nothing is forced
because the scope is refused. -/
theorem exists_forced_eq_error
    (h : p.rules.get? scope.permission.ruleName = none ∨
      p.rules.get? scope.permission.ruleName = some .user ∧ scope.principal = none) :
    ∃ error, p.forced scope = .error error := by
  rcases h with hrule | ⟨hrule, hprincipal⟩
  · exact ⟨_, by rw [forced, AccessRules.resolve, hrule]; rfl⟩
  · exact ⟨_, by rw [forced, AccessRules.resolve, hrule, hprincipal]; rfl⟩

/-! ### Plans -/

section

variable {σ Path Predicate : Type} [PredicateBuilder σ Path Predicate] {params : Params} {s : σ}

theorem predicate_eq_ok_iff {c : Compiler} {forced : List FilterExpression}
    {result : Option Predicate} :
    (predicate c forced params s).1 = .ok result ↔ ∃ first own : Option Predicate,
      (c.compileAll forced s).1 = .ok first ∧
        (c.compile params (c.compileAll forced s).2).1 = .ok own ∧
          result = combine (σ := σ) first own := by
  unfold predicate
  rcases c.compileAll forced s with ⟨outcome, state⟩
  cases outcome with
  | error error => simp
  | ok first =>
    simp only
    rcases c.compile params state with ⟨outcome, state⟩
    cases outcome with
    | error error => simp
    | ok own => simp [eq_comm]

theorem plan_eq_ok {plan : SearchPlan Predicate}
    (h : (p.plan entity params naming scope s).1 = .ok plan) :
    ∃ root forced, p.registry.schema entity = .ok root ∧ p.forced scope = .ok forced ∧
      (predicate (p.compiler root naming) forced params s).1 = .ok plan.predicate := by
  unfold Planner.plan at h
  cases hroot : p.registry.schema entity with
  | error error => simp [hroot] at h
  | ok root =>
    cases hforced : p.forced scope with
    | error error => simp [hroot, hforced] at h
    | ok forced =>
      simp only [hroot, hforced] at h
      refine ⟨root, forced, rfl, rfl, ?_⟩
      rcases hpredicate : predicate (p.compiler root naming) forced params s with ⟨outcome, state⟩
      cases outcome with
      | error error => simp [hpredicate] at h
      | ok predicate =>
        simp only [hpredicate] at h
        cases hgraph : FetchGraph.ofParams p.registry root params with
        | error error => simp [hgraph, Except.map] at h
        | ok graph =>
          simp only [hgraph, Except.map, Except.ok.injEq] at h
          rw [← h]

/-- Under the rule `user` the plan is the forced filter, conjoined with the filters of the
parameters if there are any. -/
theorem plan_of_user {principal : Principal} {plan : SearchPlan Predicate}
    (hrule : p.rules.get? scope.permission.ruleName = some .user)
    (hprincipal : scope.principal = some principal)
    (h : (p.plan entity params naming scope s).1 = .ok plan) :
    ∃ root, ∃ first : Predicate, ∃ own : Option Predicate,
      p.registry.schema entity = .ok root ∧
        ((p.compiler root naming).compileOne (userFilter principal.id) s).1 = .ok first ∧
        ((p.compiler root naming).compile params
          ((p.compiler root naming).compileOne (userFilter principal.id) s).2).1 = .ok own ∧
        plan.predicate = combine (σ := σ) (some first) own := by
  obtain ⟨root, forced, hroot, hforced, hpredicate⟩ := plan_eq_ok h
  obtain rfl : [userFilter principal.id] = forced :=
    Except.ok.inj ((forced_eq_of_user hrule hprincipal).symm.trans hforced)
  obtain ⟨first, own, hfirst, hown, hcombine⟩ := predicate_eq_ok_iff.1 hpredicate
  obtain ⟨test, htest, rfl⟩ := Compiler.compileAll_singleton_eq_ok_iff.1 hfirst
  rw [Compiler.compileAll_singleton htest] at hown
  exact ⟨root, test, own, hroot, htest, hown, hcombine⟩

theorem exists_plan_eq_error {error : FilterError} (h : p.forced scope = .error error) :
    ∃ error, (p.plan entity params naming scope s).1 = .error error := by
  unfold Planner.plan
  cases p.registry.schema entity with
  | error error => exact ⟨error, rfl⟩
  | ok root => exact ⟨error, by simp [h]⟩

end

end Planner

/-! ### Described -/

/-- The description is true if its tests are taken to be as told. -/
def Description.trueUnder (truth : FieldRef → Comparison Value → Bool) : Description → Bool
  | leaf field comparison => truth field comparison
  | and left right => left.trueUnder truth && right.trueUnder truth

theorem Description.trueUnder_iff {truth : FieldRef → Comparison Value → Bool} {d : Description} :
    d.trueUnder truth ↔ ∀ test ∈ d.conjuncts, truth test.1 test.2 := by
  induction d with
  | leaf field comparison => simp [trueUnder, conjuncts]
  | and left right ihl ihr =>
    rw [trueUnder, conjuncts, Bool.and_eq_true, ihl, ihr]
    simp only [List.mem_append, or_imp, forall_and]

namespace Describer

variable {c : Compiler} {e : FilterExpression}

theorem follow_joins (hops : List Hop) (path : FieldRef) (s : Describer) :
    (PredicateBuilder.follow hops path s).1.joins = path.joins ++ hops.map (·.name) := by
  induction hops generalizing path s with
  | nil => simp [PredicateBuilder.follow]
  | cons hop hops ih =>
    rw [PredicateBuilder.follow, ih]
    simp [PredicateBuilder.join]

/-- A path is described by the names along it. -/
theorem reach_fst (root : Schema) (resolved : ResolvedPath) (s : Describer) :
    (PredicateBuilder.reach root resolved s).1 =
      ⟨resolved.hops.map (·.name), some resolved.leaf.name⟩ := by
  have hjoins := follow_joins resolved.hops ⟨[], none⟩ s
  show FieldRef.mk (PredicateBuilder.follow resolved.hops (⟨[], none⟩ : FieldRef) s).1.joins _ = _
  rw [hjoins, List.nil_append]

/-- One filter is described by the test of the field at the end of its path, in any state. -/
theorem compileOne_eq_ok_iff {predicate : Description} {s : Describer} :
    (c.compileOne e s).1 = .ok predicate ↔ ∃ resolved comparison,
      c.WellTyped e resolved comparison ∧
        predicate = .leaf ⟨resolved.hops.map (·.name), some resolved.leaf.name⟩ comparison := by
  rw [Compiler.compileOne_eq_ok_iff]
  simp only [reach_fst]
  rfl

/-- What is described does not depend on the state. -/
theorem compileOnto_congr {acc result : Option Description} {es : List FilterExpression}
    {s : Describer} (h : (c.compileOnto acc es s).1 = .ok result) (s' : Describer) :
    (c.compileOnto acc es s').1 = .ok result := by
  induction es generalizing acc s s' with
  | nil => exact h
  | cons e es ih =>
    obtain ⟨predicate, hone, hrest⟩ := Compiler.compileOnto_cons_eq_ok_iff.1 h
    -- the first filter leaves another state, but gives the same description
    exact Compiler.compileOnto_cons_eq_ok_iff.2
      ⟨predicate, compileOne_eq_ok_iff.2 (compileOne_eq_ok_iff.1 hone), ih hrest _⟩

end Describer

/-- The field that the rule `user` looks at. -/
def userField : FieldRef := ⟨["user"], some "id"⟩

/-- The forced filter is described as the equality with the coerced id. -/
theorem describe_userFilter {c : Compiler} {id : Int} {first : Description} {s : Describer}
    (h : (c.compileOne (userFilter id) s).1 = .ok first) :
    ∃ resolved value, c.registry.resolve c.root ["user", "id"] = .ok resolved ∧
      resolved.type.coerce c.strictBooleans (toString id) = .ok value ∧
        first = .leaf userField (.equal value) := by
  obtain ⟨resolved, comparison, ⟨hresolves, hcomparison⟩, rfl⟩ := Describer.compileOne_eq_ok_iff.1 h
  obtain ⟨value, hvalue, rfl⟩ :=
    (FilterExpression.comparison_eq_ok_iff rfl (pieces_userFilter id)).1 hcomparison
  have hnames : resolved.hops.map (·.name) ++ [resolved.leaf.name] = ["user"] ++ ["id"] :=
    hresolves.names
  obtain ⟨hhops, hleaf⟩ := List.append_inj' hnames rfl
  refine ⟨resolved, value, Registry.resolve_eq_ok_iff.2 hresolves, hvalue, ?_⟩
  rw [hhops, (List.cons.inj hleaf).1, userField]

/-- What a description keeps of the access filter: it starts with the forced test and goes on with
what the parameters alone are compiled to. -/
def Description.Guarded (c : Compiler) (params : Params) (id : Int) (d : Description) : Prop :=
  ∃ resolved value, ∃ own : Option Description,
    c.registry.resolve c.root ["user", "id"] = .ok resolved ∧
      resolved.type.coerce c.strictBooleans (toString id) = .ok value ∧
      (resolved.type = .long → value = .long id) ∧
      (∀ s : Describer, (c.compile params s).1 = .ok own) ∧
      d.conjuncts = (userField, .equal value) :: (own.map Description.conjuncts).getD [] ∧
      ∀ truth, d.trueUnder truth → truth userField (.equal value)

theorem Description.exists_guarded_combine {c : Compiler} {params : Params} {id : Int}
    {first : Description} {own : Option Description} {s s' : Describer}
    (hid : Text.int64Min ≤ id ∧ id ≤ Text.int64Max)
    (hfirst : (c.compileOne (userFilter id) s).1 = .ok first)
    (hown : (c.compile params s').1 = .ok own) :
    ∃ d, Planner.combine (σ := Describer) (some first) own = some d ∧ d.Guarded c params id := by
  obtain ⟨resolved, value, hresolve, hvalue, rfl⟩ := describe_userFilter hfirst
  have hlong : resolved.type = .long → value = .long id := by
    intro htype
    rw [htype, coerce_toString_long hid] at hvalue
    exact (Except.ok.inj hvalue).symm
  have hown : ∀ s : Describer, (c.compile params s).1 = .ok own :=
    fun s => Describer.compileOnto_congr hown s
  -- whatever follows, the forced test is the first conjunct, so a true description makes it true
  have htrue : ∀ {d : Description} {rest : List (FieldRef × Comparison Value)},
      d.conjuncts = (userField, .equal value) :: rest →
        ∀ truth, d.trueUnder truth → truth userField (.equal value) := by
    intro d rest hconjuncts truth h
    rw [Description.trueUnder_iff, hconjuncts] at h
    exact h _ List.mem_cons_self
  cases own with
  | none => exact ⟨_, rfl, resolved, value, none, hresolve, hvalue, hlong, hown, rfl, htrue rfl⟩
  | some o => exact ⟨_, rfl, resolved, value, some o, hresolve, hvalue, hlong, hown, rfl, htrue rfl⟩

/-! ### In a statement -/

namespace Sql

/-- The condition is true if its tests are taken to be as told. -/
def Condition.trueUnder (truth : Column → Comparison Param → Bool) : Condition → Bool
  | test column comparison => truth column comparison
  | and left right => left.trueUnder truth && right.trueUnder truth

/-- What a predicate keeps of the access filter: its joins begin with those of the forced filter
compiled alone, and its condition implies the forced one. The parameters have no part in this. -/
def Predicate.Guarded (c : Compiler) (id : Int) (predicate : Predicate) : Prop :=
  ∃ forced : Predicate, (c.compileAll [userFilter id] ({} : Builder)).1 = .ok (some forced) ∧
    forced.joins <+: predicate.joins ∧
      ∀ truth, predicate.condition.trueUnder truth → forced.condition.trueUnder truth

theorem Predicate.exists_guarded_combine {c : Compiler} {id : Int} {first : Predicate}
    {own : Option Predicate}
    (hfirst : (c.compileOne (userFilter id) ({} : Builder)).1 = .ok first) :
    ∃ predicate, Planner.combine (σ := Builder) (some first) own = some predicate ∧
      predicate.Guarded c id := by
  have hforced : (c.compileAll [userFilter id] ({} : Builder)).1 = .ok (some first) := by
    rw [Compiler.compileAll_singleton hfirst]
  cases own with
  | none => exact ⟨_, rfl, first, hforced, List.prefix_refl _, fun _ h => h⟩
  | some o =>
    refine ⟨_, rfl, first, hforced, prefix_foldl_pushJoin first.joins o.joins, ?_⟩
    intro truth h
    exact (Bool.and_eq_true_iff.1 h).1

end Sql

/-! ### The access filter stays -/

/-- **The access filter stays.** Under the rule `user` every plan, whatever its parameters, has a
predicate that starts with the forced filter; and a scope whose rule is not registered, or lacks its
principal, gets no plan at all. -/
theorem access_filter_is_kept (p : Planner) (entity : String) (naming : Naming)
    (scope : AccessScope) :
    (∀ principal, p.rules.get? scope.permission.ruleName = some .user →
      scope.principal = some principal →
      Text.int64Min ≤ principal.id ∧ principal.id ≤ Text.int64Max → ∀ params : Params,
        (∀ (s : Describer) (plan : SearchPlan Description),
          (p.plan entity params naming scope s).1 = .ok plan →
            ∃ root d, p.registry.schema entity = .ok root ∧ plan.predicate = some d ∧
              d.Guarded (p.compiler root naming) params principal.id) ∧
        ∀ plan : SearchPlan Sql.Predicate,
          (p.plan entity params naming scope ({} : Sql.Builder)).1 = .ok plan →
            ∃ root predicate, p.registry.schema entity = .ok root ∧
              plan.predicate = some predicate ∧
                predicate.Guarded (p.compiler root naming) principal.id) ∧
    ((p.rules.get? scope.permission.ruleName = none ∨
        p.rules.get? scope.permission.ruleName = some .user ∧ scope.principal = none) →
      ∀ (σ Path Predicate : Type) [PredicateBuilder σ Path Predicate] (params : Params) (s : σ),
        ∃ error, (p.plan entity params naming scope s).1 = .error error) := by
  refine ⟨fun principal hrule hprincipal hid params =>
    ⟨fun s plan hplan => ?_, fun plan hplan => ?_⟩, fun hscope σ Path Predicate _ params s => ?_⟩
  · obtain ⟨root, first, own, hroot, hfirst, hown, hcombine⟩ :=
      Planner.plan_of_user hrule hprincipal hplan
    obtain ⟨d, hd, hguarded⟩ := Description.exists_guarded_combine hid hfirst hown
    exact ⟨root, d, hroot, hcombine.trans hd, hguarded⟩
  · obtain ⟨root, first, own, hroot, hfirst, -, hcombine⟩ :=
      Planner.plan_of_user hrule hprincipal hplan
    obtain ⟨predicate, hpredicate, hguarded⟩ := Sql.Predicate.exists_guarded_combine hfirst
    exact ⟨root, predicate, hroot, hcombine.trans hpredicate, hguarded⟩
  · obtain ⟨error, herror⟩ := Planner.exists_forced_eq_error hscope
    exact Planner.exists_plan_eq_error herror

theorem exists_ok_of_isSome {ε α : Type} {x : Except ε α} (h : x.toOption.isSome) :
    ∃ a, x = .ok a := by
  cases x with
  | error e => cases h
  | ok a => exact ⟨a, rfl⟩

/-- Plans searches in a shop. -/
def shopPlanner : Planner := { registry := .ofList [Sql.customers, Sql.orders] }

/-- Permission to read the orders of one's own. -/
def ownOrders (principal : Option Principal) : AccessScope := ⟨⟨"order:read", "user"⟩, principal⟩

/-- Asks for the orders of the customer with the number 8. -/
def foreignOrders : Params := .ofList [("f_user.id", "8")]

/-- Who asks for the orders of another gets those that are also his own, and nobody gets any. -/
theorem access_filter_is_kept_of_foreign_orders :
    shopPlanner.rules.get? "user" = some .user ∧
      (Text.int64Min ≤ 7 ∧ 7 ≤ Text.int64Max) ∧
      (∃ plan : SearchPlan Description,
        (shopPlanner.plan "order" foreignOrders .v1 (ownOrders (some ⟨7, "ann"⟩))
          ({} : Describer)).1 = .ok plan ∧
        ∃ root d, shopPlanner.registry.schema "order" = .ok root ∧ plan.predicate = some d ∧
          d.Guarded (shopPlanner.compiler root .v1) foreignOrders 7) ∧
      (∃ plan : SearchPlan Sql.Predicate,
        (shopPlanner.plan "order" foreignOrders .v1 (ownOrders (some ⟨7, "ann"⟩))
          ({} : Sql.Builder)).1 = .ok plan ∧
        ∃ root predicate, shopPlanner.registry.schema "order" = .ok root ∧
          plan.predicate = some predicate ∧
            predicate.Guarded (shopPlanner.compiler root .v1) 7) ∧
      ∃ error, (shopPlanner.plan "order" foreignOrders .v1 (ownOrders none)
        ({} : Sql.Builder)).1 = .error error := by
  have hrule : shopPlanner.rules.get? "user" = some .user := by decide
  have hid : Text.int64Min ≤ 7 ∧ 7 ≤ Text.int64Max := by decide
  obtain ⟨hdescribed, hbuilt⟩ := (access_filter_is_kept shopPlanner "order" .v1
    (ownOrders (some ⟨7, "ann"⟩))).1 ⟨7, "ann"⟩ hrule rfl hid foreignOrders
  refine ⟨hrule, hid, ?_, ?_, (access_filter_is_kept shopPlanner "order" .v1 (ownOrders none)).2
    (.inr ⟨hrule, rfl⟩) Sql.Builder _ _ foreignOrders {}⟩
  · have hsome : (shopPlanner.plan "order" foreignOrders .v1 (ownOrders (some ⟨7, "ann"⟩))
        ({} : Describer)).1.toOption.isSome := by decide +kernel
    obtain ⟨plan, hplan⟩ := exists_ok_of_isSome hsome
    exact ⟨plan, hplan, hdescribed {} plan hplan⟩
  · have hsome : (shopPlanner.plan "order" foreignOrders .v1 (ownOrders (some ⟨7, "ann"⟩))
        ({} : Sql.Builder)).1.toOption.isSome := by decide +kernel
    obtain ⟨plan, hplan⟩ := exists_ok_of_isSome hsome
    exact ⟨plan, hplan, hbuilt plan hplan⟩

end QuerySieve
