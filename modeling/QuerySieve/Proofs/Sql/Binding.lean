import QuerySieve.Proofs.Coercion
import QuerySieve.Proofs.Sql.Layout
import QuerySieve.Proofs.Sql.Rendering
import QuerySieve.Proofs.Text

/-!
# QuerySieve.Proofs.Sql.Binding

**Request values never reach the text of a statement.**

Two requests have one shape (`SameShape`) if they state the same filters with the same operators,
and their lists are of equal length. Their filters are then checked to the same paths and, but for
the values, to the same tests (`Compiler.retest_eq_of_alike`). Blanking the values passes through
planning (`CheckedRequest.map_plan`), so both predicates come to one when they are blanked, and the
text of a statement is that of its blanked form. What the values are instead bound to is read off
the checked filters, in the order in which a description shows them.
-/

namespace QuerySieve

/-! ### Requests of one shape -/

/-- The operator of the filter that a parameter of this name states. -/
def Naming.operator (naming : Naming) (name : String) (params : Params) : Operator :=
  .ofName (naming.extract name params).2

/-- How many commas the value of a parameter has. -/
def commas (params : Params) (name : String) : Nat :=
  ((params.get? name).getD "").toList.count ','

/-- The two requests have parameters of the same names, no filter is blank in either, the companions
of filters are read as the same operators, and lists are equally long. -/
structure SameShape (naming : Naming) (params params' : Params) : Prop where
  keys : params.keys = params'.keys
  filled : ∀ entry ∈ params.entries, naming.isFilter entry.1 → ¬ Text.isBlankText entry.2
  filled' : ∀ entry ∈ params'.entries, naming.isFilter entry.1 → ¬ Text.isBlankText entry.2
  companions : naming = .v1 → ∀ name ∈ params.keys, naming.isFilter name →
    (params.get? (name ++ Naming.operatorMark)).map Operator.ofName =
      (params'.get? (name ++ Naming.operatorMark)).map Operator.ofName
  lists : ∀ name ∈ params.keys, naming.isFilter name → naming.operator name params = .isIn →
    commas params name = commas params' name

/-- Two filters that differ in their values only, and not in how many there are in a list. -/
structure FilterExpression.Alike (e e' : FilterExpression) : Prop where
  path : e.path = e'.path
  operator : e.operator = e'.operator
  pieces : e.operator = .isIn → e.pieces.length = e'.pieces.length

namespace Naming

variable {naming : Naming} {params params' : Params}

/-- The filter that a parameter of this name states. -/
def expression (naming : Naming) (params : Params) (name : String) : FilterExpression :=
  .ofField (naming.extract name params).1 (naming.operator name params)
    ((params.get? name).getD "")

/-- If no filter is blank, the names alone tell which parameters are filters. -/
theorem decompose_eq
    (h : ∀ entry ∈ params.entries, naming.isFilter entry.1 → ¬ Text.isBlankText entry.2) :
    naming.decompose params =
      (params.keys.filter naming.isFilter).map (naming.expression params) := by
  have hselected : naming.selected params =
      params.entries.filter (naming.isFilter ∘ Prod.fst) := by
    refine List.filter_congr fun entry hentry => ?_
    have hfilled := h entry hentry
    cases hfilter : naming.isFilter entry.1 <;> simp_all
  rw [decompose, hselected, Dict.keys, List.filter_map, List.map_map]
  refine List.map_congr_left fun entry hentry => ?_
  have hget := Dict.get?_eq_some_iff.2 (List.mem_of_mem_filter hentry)
  simp only [Function.comp_apply, expression, operator, hget, Option.getD_some]

theorem operator_eq (h : SameShape naming params params') {name : String}
    (hname : name ∈ params.keys) (hfilter : naming.isFilter name) :
    naming.operator name params = naming.operator name params' := by
  cases naming with
  | v2 => rfl
  | v1 =>
    -- a filter without a companion is an equality, and `eq` is read as one
    have hread : ∀ word : Option String, Operator.ofName (word.getD Operator.eq.name) =
        (word.map Operator.ofName).getD .eq := by
      intro word
      cases word <;> simp
    simp only [operator, extract, hread, h.companions rfl name hname hfilter]

theorem alike_expression (h : SameShape naming params params') {name : String}
    (hname : name ∈ params.keys) (hfilter : naming.isFilter name) :
    (naming.expression params name).Alike (naming.expression params' name) where
  path := by cases naming <;> rfl
  operator := operator_eq h hname hfilter
  pieces hin := by
    rw [FilterExpression.pieces, FilterExpression.pieces, Text.length_split, Text.length_split]
    exact congrArg (· + 1) (h.lists name hname hfilter hin)

theorem forall₂_decompose (h : SameShape naming params params') :
    List.Forall₂ FilterExpression.Alike (naming.decompose params) (naming.decompose params') := by
  rw [decompose_eq h.filled, decompose_eq h.filled', ← h.keys, List.forall₂_map_left_iff,
    List.forall₂_map_right_iff, List.forall₂_same]
  intro name hname
  obtain ⟨hkey, hfilter⟩ := List.mem_filter.1 hname
  exact alike_expression h hkey hfilter

end Naming

/-! ### Checked alike -/

theorem Comparison.blank_congr {α : Type} {comparison comparison' : Comparison α}
    (hoperator : comparison.operator = comparison'.operator)
    (hlists : ∀ values values', comparison = .isIn values → comparison' = .isIn values' →
      values.length = values'.length) (value : α) :
    comparison.blank value = comparison'.blank value := by
  cases comparison <;> cases comparison' <;> simp_all [operator, blank]

/-- The checked filter with blank values. -/
def CheckedFilter.blank (f : CheckedFilter) : CheckedFilter :=
  f.retest (Comparison.blank (.text ""))

/-- How many values the test of a filter binds. -/
def FilterExpression.arity (e : FilterExpression) : Nat :=
  match e.operator with
  | .eq | .like => 1
  | .isIn => e.raw.toList.count ',' + 1
  | .between => 2

theorem FilterExpression.Tests.length_params {e : FilterExpression} {strict : Bool}
    {type : ValueType} {comparison : Comparison Value} (h : e.Tests strict type comparison) :
    (comparison.map Sql.Param.ofValue).params.length = e.arity := by
  unfold FilterExpression.arity
  cases h with
  | equal hoperator _ => rw [hoperator]; rfl
  | like hoperator _ => rw [hoperator]; rfl
  | between hoperator _ _ => rw [hoperator]; rfl
  | isIn hoperator hpieces =>
    rw [hoperator, Comparison.map, Comparison.params, List.length_map, ← hpieces.length_eq,
      FilterExpression.pieces, Text.length_split]

namespace Compiler

variable {c : Compiler}

/-- Filters that differ in their values only are checked alike. -/
theorem blank_eq_of_alike {e e' : FilterExpression} {f f' : CheckedFilter} (halike : e.Alike e')
    (h : c.check e = .ok f) (h' : c.check e' = .ok f') : f.blank = f'.blank := by
  obtain ⟨hresolves, hcomparison⟩ := check_eq_ok_iff.1 h
  obtain ⟨hresolves', hcomparison'⟩ := check_eq_ok_iff.1 h'
  have htests := FilterExpression.comparison_eq_ok_iff_tests.1 hcomparison
  have htests' := FilterExpression.comparison_eq_ok_iff_tests.1 hcomparison'
  have hpath : f.path = f'.path := hresolves.unique (halike.path ▸ hresolves')
  have hoperator : f.comparison.operator = f'.comparison.operator := by
    rw [htests.operator_eq, htests'.operator_eq, halike.operator]
  have hblank : f.comparison.blank (.text "") = f'.comparison.blank (.text "") := by
    refine Comparison.blank_congr hoperator (fun values values' heq heq' => ?_) _
    rw [heq] at htests
    rw [heq'] at htests'
    rw [htests.length_isIn, htests'.length_isIn, halike.pieces htests.operator_eq.symm]
  rw [CheckedFilter.blank, CheckedFilter.blank, CheckedFilter.retest, CheckedFilter.retest, hpath,
    hblank]

theorem map_blank_eq_of_alike {es es' : List FilterExpression} {fs fs' : List CheckedFilter}
    (halike : List.Forall₂ FilterExpression.Alike es es') (h : es.mapM c.check = .ok fs)
    (h' : es'.mapM c.check = .ok fs') :
    fs.map CheckedFilter.blank = fs'.map CheckedFilter.blank := by
  rw [mapM_eq_ok_iff] at h h'
  induction halike generalizing fs fs' with
  | nil =>
    cases h
    cases h'
    rfl
  | cons hone _ ih =>
    cases h with
    | cons hcheck hrest =>
      cases h' with
      | cons hcheck' hrest' =>
        rw [List.map_cons, List.map_cons, blank_eq_of_alike hone hcheck hcheck', ih hrest hrest']

end Compiler

namespace CheckedRequest

/-- The predicate depends neither on the graph nor on what is equal. -/
theorem predicate_plan_congr {σ Path Predicate : Type} [PredicateBuilder σ Path Predicate]
    {r r' : CheckedRequest} (hroot : r.root = r'.root) (hforced : r.forced = r'.forced)
    (hown : r.own = r'.own) (s : σ) : (r.plan s).predicate = (r'.plan s).predicate := by
  simp only [plan, hroot, hforced, hown]

end CheckedRequest

namespace Planner

variable {p : Planner} {entity : String} {naming : Naming} {scope : AccessScope}
  {params params' : Params}

/-- Requests of one shape are planned to one predicate, but for its values. -/
theorem map_blank_predicate_eq (hshape : SameShape naming params params') {r r' : CheckedRequest}
    (h : p.check entity params naming scope = .ok r)
    (h' : p.check entity params' naming scope = .ok r') (t : Sql.Builder) :
    (r.plan t).predicate.map Sql.Predicate.blank =
      (r'.plan t).predicate.map Sql.Predicate.blank := by
  obtain ⟨expressions, hroot, hexpressions, hforced, hown⟩ := check_eq_ok h
  obtain ⟨expressions', hroot', hexpressions', hforced', hown'⟩ := check_eq_ok h'
  obtain rfl : expressions = expressions' :=
    Except.ok.inj (hexpressions.symm.trans hexpressions')
  have hroots : r.root = r'.root := Except.ok.inj (hroot.symm.trans hroot')
  rw [← hroots] at hforced' hown'
  -- blanking the predicate is blanking the checked filters
  have hmap : ∀ q : CheckedRequest, (q.plan t).predicate.map Sql.Predicate.blank =
      ((q.retest (Comparison.blank (.text ""))).plan t).predicate := by
    intro q
    refine CheckedRequest.map_plan (fun _ _ => rfl) fun path comparison => ?_
    have htest := Comparison.blank_map Sql.Param.ofValue (.text "") comparison
    exact congrArg (fun c => (⟨.test path.tested c, path.joins⟩ : Sql.Predicate)) htest
  rw [hmap, hmap]
  refine CheckedRequest.predicate_plan_congr ?_ ?_ ?_ t
  · exact hroots
  · exact congrArg (List.map _) (Except.ok.inj (hforced.symm.trans hforced'))
  · exact Compiler.map_blank_eq_of_alike (Naming.forall₂_decompose hshape) hown hown'

end Planner

namespace Sql

/-! ### Statements -/

/-- The conjuncts of a description from left to right; none without one. -/
def conjunctsOf (description : Option Description) : List (FieldRef × Comparison Value) :=
  (description.map Description.conjuncts).getD []

/-- The values that they state, in their order. -/
def statedValues (description : Option Description) : List Param :=
  (conjunctsOf description).flatMap fun conjunct => (conjunct.2.map Param.ofValue).params

/-- The conjunct states the filter: it is about the filter's field, has the filter's operator and
binds as many values as the filter has. -/
structure States (e : FilterExpression) (conjunct : FieldRef × Comparison Value) : Prop where
  field : conjunct.1.text = e.field
  operator : conjunct.2.operator = e.operator
  count : (conjunct.2.map Param.ofValue).params.length = e.arity

theorem states_of_check {c : Compiler} {e : FilterExpression} {f : CheckedFilter}
    (h : c.check e = .ok f) : States e (f.ref, f.comparison) := by
  obtain ⟨hresolves, hcomparison⟩ := Compiler.check_eq_ok_iff.1 h
  have htests := FilterExpression.comparison_eq_ok_iff_tests.1 hcomparison
  refine ⟨?_, htests.operator_eq, htests.length_params⟩
  rw [FieldRef.text, FilterExpression.field, ← hresolves.names]
  rfl

theorem forall₂_states {c : Compiler} {es : List FilterExpression} {fs : List CheckedFilter}
    (h : es.mapM c.check = .ok fs) :
    List.Forall₂ States es (fs.map fun f => (f.ref, f.comparison)) := by
  rw [List.forall₂_map_right_iff]
  exact (mapM_eq_ok_iff.1 h).imp fun e f => states_of_check

/-- No checked filter tests for an empty list. -/
theorem ne_isIn_nil_of_mem_testsOf {p : Planner} {entity : String} {params : Params}
    {naming : Naming} {scope : AccessScope} {r : CheckedRequest}
    (h : p.check entity params naming scope = .ok r) (t : Builder) :
    ∀ test ∈ testsOf (r.plan t).predicate, test.2 ≠ .isIn [] := by
  intro test htest
  rw [testsOf, leaves_plan] at htest
  obtain ⟨⟨f, entry⟩, hmem, rfl⟩ := List.mem_map.1 htest
  obtain ⟨expressions, -, hchecked⟩ := Planner.mapM_check_filters h
  obtain ⟨e, -, hcheck⟩ := exists_of_mem_mapM hchecked (List.fst_mem_of_mem_zipIdx hmem)
  have htests := FilterExpression.comparison_eq_ok_iff_tests.1 (Compiler.check_eq_ok_iff.1 hcheck).2
  intro hnil
  obtain ⟨values, hvalues, hmap⟩ : ∃ values, f.comparison = .isIn values ∧
      values.map Param.ofValue = [] := by
    cases hcomparison : f.comparison <;> simp_all [leafOf, Comparison.map]
  exact htests.ne_isIn_nil (hvalues.trans (congrArg _ (List.map_eq_nil_iff.1 hmap)))

/-- The tests bind the values that the conjuncts state. -/
theorem params_testsOf (r : CheckedRequest) (s : Describer) (t : Builder) :
    (testsOf (r.plan t).predicate).flatMap (fun test => test.2.params) =
      statedValues (r.plan s).predicate := by
  rw [testsOf, leaves_plan, statedValues, conjunctsOf, Describer.conjuncts_plan, List.flatMap_map,
    List.flatMap_map]
  -- the entries' numbers say where a test is made, not of what
  calc (r.filters.zipIdx (t.entries + 1)).flatMap
        (fun numbered => (leafOf r.root numbered).2.params)
    _ = ((r.filters.zipIdx (t.entries + 1)).map Prod.fst).flatMap
          fun f => (f.comparison.map Param.ofValue).params := by
        rw [List.flatMap_map]
        rfl
    _ = r.filters.flatMap fun f => (f.comparison.map Param.ofValue).params := by
        rw [List.zipIdx_map_fst]

/-- **Request values never reach the text of a statement.** Plan requests for an entity, under one
scope and from one state, and render the statements of one page for one kind of database. Then
requests of one shape have the same texts, whatever their values. And the values of any request are
bound: the tests' values in the order in which a description states them, as many as each filter
has, and the limit and the offset of the page after them. No test is of an empty list. -/
theorem values_never_reach_text (p : Planner) (entity : String) (naming : Naming)
    (scope : AccessScope) (t : Builder) (root : Schema) (page : PageRequest) (d : Dialect) :
    (∀ (params params' : Params) (plan plan' : SearchPlan Predicate),
      SameShape naming params params' →
      (p.plan entity params naming scope t).1 = .ok plan →
      (p.plan entity params' naming scope t).1 = .ok plan' →
        (selectPage root plan.predicate page).text d =
            (selectPage root plan'.predicate page).text d ∧
        (selectCount root plan.predicate).text d = (selectCount root plan'.predicate).text d) ∧
    ∀ (params : Params) (plan : SearchPlan Predicate),
      (p.plan entity params naming scope t).1 = .ok plan → ∀ s : Describer,
        ∃ expressions described, p.forced scope = .ok expressions ∧
          (p.plan entity params naming scope s).1 = .ok described ∧
          List.Forall₂ States (expressions ++ naming.decompose params)
            (conjunctsOf described.predicate) ∧
          (selectPage root plan.predicate page).Binds d
            (statedValues described.predicate ++ [.int page.limit, .int page.offset]) ∧
          (selectCount root plan.predicate).Binds d (statedValues described.predicate) ∧
          ∀ test ∈ testsOf plan.predicate, test.2 ≠ .isIn [] := by
  refine ⟨fun params params' plan plan' hshape hplan hplan' => ?_, fun params plan hplan s => ?_⟩
  · obtain ⟨r, hcheck, rfl⟩ := Planner.exists_check_of_plan_eq_ok hplan
    obtain ⟨r', hcheck', rfl⟩ := Planner.exists_check_of_plan_eq_ok hplan'
    have hblank := Planner.map_blank_predicate_eq hshape hcheck hcheck' t
    refine ⟨Statement.text_eq_of_blank_eq d ?_, Statement.text_eq_of_blank_eq d ?_⟩
    · rw [blank_selectPage, blank_selectPage, hblank]
    · rw [blank_selectCount, blank_selectCount, hblank]
  · obtain ⟨r, hcheck, rfl⟩ := Planner.exists_check_of_plan_eq_ok hplan
    obtain ⟨expressions, hexpressions, hmap⟩ := Planner.mapM_check_filters hcheck
    have hstates : List.Forall₂ States (expressions ++ naming.decompose params)
        (conjunctsOf (r.plan s).predicate) := by
      rw [conjunctsOf, Describer.conjuncts_plan]
      exact forall₂_states hmap
    have hlists := ne_isIn_nil_of_mem_testsOf hcheck t
    refine ⟨expressions, r.plan s, hexpressions, by rw [Planner.plan_fst, hcheck]; rfl, hstates,
      Statement.binds_of_values ?_, Statement.binds_of_values ?_, hlists⟩
    · rw [values_selectPage d page hlists, params_testsOf r s t]
    · rw [values_selectCount d hlists, params_testsOf r s t]

/-- Books with their titles and the years that they appeared in. -/
def books : Schema :=
  (Schema.new "book" "books").scalar "id" .long |>.scalar "title" .string |>.scalar "year" .long

/-- Plans searches in a library. -/
def library : Planner := { registry := .ofList [books] }

/-- May read all books. -/
def reader : AccessScope := ⟨⟨"book:read", "all"⟩, none⟩

/-- Asks for a book of one of two years. -/
def plainSearch : Params :=
  .ofList [("f_title", "Emma"), ("f_year", "1815,1816"), ("f_year_op", "in")]

/-- Asks the same of a title that looks like a condition. -/
def quotedSearch : Params :=
  .ofList [("f_title", "' OR ''='?"), ("f_year", " 3,4"), ("f_year_op", "in")]

/-- The quotation marks of a title end up in a value, and both searches are one text. -/
theorem values_never_reach_text_of_quoted_title :
    SameShape .v1 plainSearch quotedSearch ∧
    ∃ plan plan' : SearchPlan Predicate,
      (library.plan "book" plainSearch .v1 reader ({} : Builder)).1 = .ok plan ∧
      (library.plan "book" quotedSearch .v1 reader ({} : Builder)).1 = .ok plan' ∧
      (selectPage books plan.predicate ⟨0, 20⟩).text .sqlite =
        (selectPage books plan'.predicate ⟨0, 20⟩).text .sqlite ∧
      (selectPage books plan'.predicate ⟨0, 20⟩).Binds .sqlite
        [.text "' OR ''='?", .int 3, .int 4, .int 20, .int 0] := by
  have hshape : SameShape .v1 plainSearch quotedSearch := {
    keys := by decide +kernel
    filled := by decide +kernel
    filled' := by decide +kernel
    companions := fun _ => by decide +kernel
    lists := by decide +kernel }
  have hplain : (library.plan "book" plainSearch .v1 reader ({} : Builder)).1.toOption.isSome := by
    decide +kernel
  have hquoted : (library.plan "book" quotedSearch .v1 reader
      ({} : Builder)).1.toOption.isSome := by decide +kernel
  have hstated : ((library.plan "book" quotedSearch .v1 reader
      ({} : Describer)).1.toOption.map fun plan => statedValues plan.predicate) =
        some [.text "' OR ''='?", .int 3, .int 4] := by decide +kernel
  obtain ⟨plan, hplan⟩ := exists_ok_of_isSome hplain
  obtain ⟨plan', hplan'⟩ := exists_ok_of_isSome hquoted
  obtain ⟨hshapes, hvalues⟩ :=
    values_never_reach_text library "book" .v1 reader {} books ⟨0, 20⟩ .sqlite
  obtain ⟨expressions, described, -, hdescribed, -, hpage, -⟩ :=
    hvalues quotedSearch plan' hplan' {}
  simp only [hdescribed, Except.toOption, Option.map_some, Option.some.injEq] at hstated
  rw [hstated] at hpage
  exact ⟨hshape, plan, plan', hplan, hplan',
    (hshapes plainSearch quotedSearch plan plan' hshape hplan hplan').1, hpage⟩

end Sql

end QuerySieve
