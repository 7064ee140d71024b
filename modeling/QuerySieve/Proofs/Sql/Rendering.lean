import Mathlib.Data.List.Induction
import QuerySieve.Proofs.Access
import QuerySieve.Proofs.Checking
import QuerySieve.Proofs.Sql.Selection

/-!
# QuerySieve.Proofs.Sql.Rendering

**The description and the statement are two renderings of one predicate.**

A `Describer` and a `Builder` are asked for the same checked filters, so it is enough to say what
each makes of one. The `Describer` keeps the names along the path (`CheckedFilter.ref`); the
`Builder` keeps the column at its end, under the root's name or under the alias that the entry and
the names along the path make up (`Sql.leafOf`). The entries are numbered through, over the
forced filters and the request's own, which is why the leaves are read with `List.zipIdx`.

Nothing is asked of the model here. Names that make aliases meet spoil the joins, but not the
correspondence of the tests.
-/

namespace QuerySieve

/-- The field of a checked filter as it is described. -/
def CheckedFilter.ref (f : CheckedFilter) : FieldRef :=
  ⟨f.path.hops.map (·.name), some f.path.leaf.name⟩

/-! ### Described -/

namespace Describer

theorem build_eq (root : Schema) (fs : List CheckedFilter) (s : Describer) :
    PredicateBuilder.build root fs s = fs.map fun f => .leaf f.ref f.comparison := by
  induction fs generalizing s with
  | nil => rfl
  | cons f fs ih =>
    have hone : PredicateBuilder.test Describer (PredicateBuilder.reach root f.path s).1
        f.comparison = .leaf f.ref f.comparison := by
      rw [reach_fst]
      rfl
    exact congrArg₂ List.cons hone (ih _)

/-- The conjuncts are the checked filters in their order. -/
theorem conjuncts_build (root : Schema) (fs : List CheckedFilter) (s : Describer) :
    (PredicateBuilder.build root fs s).flatMap Description.conjuncts =
      fs.map fun f => (f.ref, f.comparison) := by
  rw [build_eq, List.flatMap_map]
  exact List.map_eq_flatMap.symm

theorem conjuncts_plan (r : CheckedRequest) (s : Describer) :
    ((r.plan s).predicate.map Description.conjuncts).getD [] =
      r.filters.map fun f => (f.ref, f.comparison) := by
  rw [CheckedRequest.view_plan fun _ _ => rfl, conjuncts_build]

end Describer

/-- The field is described by the path that the filter was written with. -/
theorem Compiler.text_ref_of_check {c : Compiler} {e : FilterExpression} {f : CheckedFilter}
    (h : c.check e = .ok f) : f.ref.text = e.field := by
  rw [FieldRef.text, FilterExpression.field, ← (check_eq_ok_iff.1 h).1.names]
  rfl

/-! ### In a statement -/

namespace Sql

/-- The name under which an entry knows what relations lead to: the root's table if there are none,
and otherwise the alias of the last of them. -/
def qualifier (root : Schema) (entry : Nat) (relations : List String) : String :=
  if relations = [] then root.table else joinAlias entry (relations.foldl extendRelations "")

/-- The test that a checked filter becomes in the entry of a number. -/
def leafOf (root : Schema) (numbered : CheckedFilter × Nat) : Column × Comparison Param :=
  let (f, entry) := numbered
  (⟨qualifier root entry (f.path.hops.map (·.name)), f.path.leaf.column?.getD "*"⟩,
    f.comparison.map .ofValue)

/-- Following relations extends the path's text by their names and keeps its entry. -/
theorem follow_foldl (hops : List Hop) (path : Path) :
    (hops.foldl Path.follow path).entry = path.entry ∧
      (hops.foldl Path.follow path).relations =
        (hops.map (·.name)).foldl extendRelations path.relations := by
  induction hops generalizing path with
  | nil => exact ⟨rfl, rfl⟩
  | cons hop hops ih => exact ih (path.follow hop)

theorem tableAlias_foldl_follow (root : Schema) (entry : Nat) (hops : List Hop) :
    (hops.foldl Path.follow (Path.start root entry)).tableAlias =
      qualifier root entry (hops.map (·.name)) := by
  -- the alias is that of the last relation, whatever the path had before
  induction hops using List.reverseRecOn with
  | nil => rfl
  | append_singleton hops hop _ =>
    obtain ⟨hentry, hrelations⟩ := follow_foldl hops (Path.start root entry)
    have hne : (hops ++ [hop]).map (·.name) ≠ [] := by simp
    rw [List.foldl_append, List.foldl_cons, List.foldl_nil, qualifier, if_neg hne, List.map_append,
      List.foldl_append]
    show joinAlias _ (extendRelations _ hop.name) = _
    rw [hentry, hrelations]
    rfl

theorem leaves_test_reach (root : Schema) (f : CheckedFilter) (s : Builder) :
    (PredicateBuilder.test Builder (PredicateBuilder.reach root f.path s).1 f.comparison
      : Predicate).condition.leaves = [leafOf root (f, s.entries + 1)] := by
  rw [reach_eq, leafOf, ← tableAlias_foldl_follow]
  rfl

/-- The tests of a statement, each in an entry of its own number. -/
theorem leaves_build (root : Schema) (fs : List CheckedFilter) (s : Builder) :
    (PredicateBuilder.build root fs s).flatMap (fun p => p.condition.leaves) =
      (fs.zipIdx (s.entries + 1)).map (leafOf root) := by
  induction fs generalizing s with
  | nil => rfl
  | cons f fs ih =>
    rw [PredicateBuilder.build_cons, List.flatMap_cons, leaves_test_reach, reach_snd, ih,
      List.zipIdx_cons, List.map_cons, List.singleton_append]

theorem leaves_plan (r : CheckedRequest) (s : Builder) :
    ((r.plan s).predicate.map fun p => p.condition.leaves).getD [] =
      (r.filters.zipIdx (s.entries + 1)).map (leafOf r.root) := by
  rw [CheckedRequest.view_plan fun _ _ => rfl, leaves_build]

/-! ### One predicate, rendered twice -/

/-- A test of a statement renders a conjunct of a description. The conjunct's dotted path leads from
the root to a declared column, which is what the test is about, under the root's table or under the
alias of the last relation on the way in this entry; and the test has the conjunct's operator and
its values. -/
def Renders (reg : Registry) (root : Schema) (entry : Nat) (conjunct : FieldRef × Comparison Value)
    (leaf : Column × Comparison Param) : Prop :=
  ∃ resolved column, reg.resolve root (Text.split '.' conjunct.1.text) = .ok resolved ∧
    conjunct.1 = ⟨resolved.hops.map (·.name), some resolved.leaf.name⟩ ∧
    resolved.leaf.column? = some column ∧
    leaf.1 = ⟨qualifier root entry (resolved.hops.map (·.name)), column⟩ ∧
    leaf.2 = conjunct.2.map Param.ofValue

theorem renders_of_check {c : Compiler} {e : FilterExpression} {f : CheckedFilter}
    (hpath : Text.split '.' e.field = e.path) (h : c.check e = .ok f) (entry : Nat) :
    Renders c.registry c.root entry (f.ref, f.comparison) (leafOf c.root (f, entry)) := by
  obtain ⟨hresolves, hcomparison⟩ := Compiler.check_eq_ok_iff.1 h
  obtain ⟨column, hcolumn⟩ := hresolves.exists_column
  refine ⟨f.path, column, ?_, rfl, hcolumn, ?_, rfl⟩
  · rw [Compiler.text_ref_of_check h, hpath]
    exact Registry.resolve_eq_ok_iff.2 hresolves
  · simp only [leafOf, hcolumn, Option.getD_some]

end Sql

/-- All filters of a request are written with dotted paths. -/
theorem FilterExpression.split_field_ofField (field raw : String) (operator : Operator) :
    Text.split '.' (ofField field operator raw).field = (ofField field operator raw).path := by
  rw [field_ofField, ofField]

theorem Naming.split_field_of_mem_decompose {naming : Naming} {params : Params}
    {e : FilterExpression} (h : e ∈ naming.decompose params) : Text.split '.' e.field = e.path := by
  obtain ⟨entry, -, rfl⟩ := List.mem_map.1 h
  exact FilterExpression.split_field_ofField ..

theorem Planner.split_field_of_mem_forced {p : Planner} {scope : AccessScope}
    {expressions : List FilterExpression} (hforced : p.forced scope = .ok expressions)
    {e : FilterExpression} (h : e ∈ expressions) : Text.split '.' e.field = e.path := by
  unfold forced at hforced
  cases hrules : p.rules.resolve scope with
  | error error => simp [hrules, Except.map] at hforced
  | ok filters =>
    obtain rfl : filters.map AccessFilter.toExpression = expressions := by
      simpa [hrules, Except.map] using hforced
    obtain ⟨filter, -, rfl⟩ := List.mem_map.1 h
    exact FilterExpression.split_field_ofField ..

namespace Sql

theorem renders_of_mem_filters {p : Planner} {entity : String} {params : Params} {naming : Naming}
    {scope : AccessScope} {r : CheckedRequest} (h : p.check entity params naming scope = .ok r)
    {f : CheckedFilter} (hf : f ∈ r.filters) (entry : Nat) :
    Renders p.registry r.root entry (f.ref, f.comparison) (leafOf r.root (f, entry)) := by
  obtain ⟨expressions, hforced, hchecked⟩ := Planner.mapM_check_filters h
  obtain ⟨e, he, hcheck⟩ := exists_of_mem_mapM hchecked hf
  refine renders_of_check ?_ hcheck entry
  rcases List.mem_append.1 he with he | he
  · exact Planner.split_field_of_mem_forced hforced he
  · exact Naming.split_field_of_mem_decompose he

theorem forall₂_renders {reg : Registry} {root : Schema} {fs : List CheckedFilter}
    (h : ∀ f ∈ fs, ∀ entry, Renders reg root entry (f.ref, f.comparison) (leafOf root (f, entry)))
    (first : Nat) :
    List.Forall₂ (fun conjunct (leaf, entry) => Renders reg root entry conjunct leaf)
      (fs.map fun f => (f.ref, f.comparison))
      (((fs.zipIdx first).map (leafOf root)).zipIdx first) := by
  induction fs generalizing first with
  | nil => exact .nil
  | cons f fs ih =>
    exact .cons (h f List.mem_cons_self first)
      (ih (fun g hg => h g (List.mem_cons_of_mem _ hg)) (first + 1))

/-- **The description and the statement render one predicate.** Planned for a description and for a
statement, from any two states, a request is either refused twice with one error or planned twice
with one graph; and then there is either no predicate at all, or the tests of the statement render
the conjuncts of the description one by one, each in the next entry. -/
theorem plans_render_one_predicate (p : Planner) (entity : String) (params : Params)
    (naming : Naming) (scope : AccessScope) (s : Describer) (t : Builder) :
    (∃ error, (p.plan entity params naming scope s).1 = .error error ∧
      (p.plan entity params naming scope t).1 = .error error) ∨
    ∃ root, ∃ (described : SearchPlan Description) (built : SearchPlan Predicate),
      p.registry.schema entity = .ok root ∧
      (p.plan entity params naming scope s).1 = .ok described ∧
      (p.plan entity params naming scope t).1 = .ok built ∧
      built.graph = described.graph ∧
      (described.predicate = none ∧ built.predicate = none ∨
        ∃ d q, described.predicate = some d ∧ built.predicate = some q ∧
          List.Forall₂ (fun conjunct (leaf, entry) => Renders p.registry root entry conjunct leaf)
            d.conjuncts (q.condition.leaves.zipIdx (t.entries + 1))) := by
  rw [Planner.plan_fst, Planner.plan_fst]
  cases hcheck : p.check entity params naming scope with
  | error error => exact .inl ⟨error, rfl, rfl⟩
  | ok r =>
    obtain ⟨-, hroot, -⟩ := Planner.check_eq_ok hcheck
    refine .inr ⟨r.root, r.plan s, r.plan t, hroot, rfl, rfl, rfl, ?_⟩
    by_cases hfilters : r.filters = []
    · exact .inl ⟨CheckedRequest.predicate_plan_eq_none_iff.2 hfilters,
        CheckedRequest.predicate_plan_eq_none_iff.2 hfilters⟩
    · obtain ⟨d, hd⟩ : ∃ d, (r.plan s).predicate = some d := Option.ne_none_iff_exists'.1
        fun hnone => hfilters (CheckedRequest.predicate_plan_eq_none_iff.1 hnone)
      obtain ⟨q, hq⟩ : ∃ q, (r.plan t).predicate = some q := Option.ne_none_iff_exists'.1
        fun hnone => hfilters (CheckedRequest.predicate_plan_eq_none_iff.1 hnone)
      have hconjuncts : d.conjuncts = r.filters.map fun f => (f.ref, f.comparison) := by
        simpa [hd] using Describer.conjuncts_plan r s
      have hleaves : q.condition.leaves =
          (r.filters.zipIdx (t.entries + 1)).map (leafOf r.root) := by
        simpa [hq] using leaves_plan r t
      refine .inr ⟨d, q, hd, hq, ?_⟩
      rw [hconjuncts, hleaves]
      exact forall₂_renders (fun f hf entry => renders_of_mem_filters hcheck hf entry) _

/-- Of the orders of another, the forced filter and the one that was asked for, after four entries
that were opened before. -/
theorem plans_render_one_predicate_of_foreign_orders :
    ∃ root d q,
      shopPlanner.registry.schema "order" = .ok root ∧
      ((shopPlanner.plan "order" foreignOrders .v1 (ownOrders (some ⟨7, "ann"⟩))
        ({} : Describer)).1.map SearchPlan.predicate) = .ok (some d) ∧
      ((shopPlanner.plan "order" foreignOrders .v1 (ownOrders (some ⟨7, "ann"⟩))
        ({ entries := 4 } : Builder)).1.map SearchPlan.predicate) = .ok (some q) ∧
      q.condition.leaves =
        [(⟨"j5_user", "id"⟩, .equal (.int 7)), (⟨"j6_user", "id"⟩, .equal (.int 8))] ∧
      List.Forall₂ (fun conjunct (leaf, entry) =>
        Renders shopPlanner.registry root entry conjunct leaf) d.conjuncts
          (q.condition.leaves.zipIdx 5) := by
  have hleaves : (shopPlanner.plan "order" foreignOrders .v1 (ownOrders (some ⟨7, "ann"⟩))
      ({ entries := 4 } : Builder)).1.map
        (fun plan => plan.predicate.map fun q => q.condition.leaves) =
      .ok (some [(⟨"j5_user", "id"⟩, .equal (.int 7)), (⟨"j6_user", "id"⟩, .equal (.int 8))]) := by
    decide +kernel
  obtain ⟨error, -, hrefused⟩ | ⟨root, described, built, hroot, hdescribed, hbuilt, -, hrenders⟩ :=
    plans_render_one_predicate shopPlanner "order" foreignOrders .v1 (ownOrders (some ⟨7, "ann"⟩))
      {} { entries := 4 }
  · rw [hrefused] at hleaves
    cases hleaves
  · rw [hbuilt] at hleaves
    obtain ⟨-, hnone⟩ | ⟨d, q, hd, hq, hrenders⟩ := hrenders
    · simp [Except.map, hnone] at hleaves
    · simp only [Except.map, hq, Option.map_some, Except.ok.injEq, Option.some.injEq] at hleaves
      refine ⟨root, d, q, hroot, ?_, ?_, hleaves, hrenders⟩
      · rw [hdescribed, Except.map, hd]
      · rw [hbuilt, Except.map, hq]

end Sql

end QuerySieve
