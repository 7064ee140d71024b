import QuerySieve.Proofs.Naming

/-!
# QuerySieve.Proofs.Filtering

**What a request states it is filtered by.** The conjuncts of a plan are those of the scope and,
after them, one for every parameter that states a filter (`Planner.conjuncts_of_plan`). So a filter
is refused with the whole request or it is in the predicate; none is passed over.

Which parameters state filters, their names alone decide. In `v1` a name that ends in the mark of
operators is a companion and no filter, also where the model has a field whose name ends so: such a
field cannot be filtered by under this convention.
-/

namespace QuerySieve

theorem Text.dropStart?_append (start rest : String) :
    Text.dropStart? start (start ++ rest) = some rest := by
  have hstart : start.toList.isPrefixOf (start ++ rest).toList := Naming.startsWith_append ..
  rw [Text.dropStart?, if_pos hstart]
  simp

namespace Planner

variable {p : Planner} {entity : String} {params : Params} {naming : Naming} {scope : AccessScope}
variable {s : Describer} {plan : SearchPlan Description}

/-- The filters of the scope and those of the request are described one by one, in this order. -/
theorem conjuncts_of_plan (h : (p.plan entity params naming scope s).1 = .ok plan) :
    ∃ root expressions forced own, p.registry.schema entity = .ok root ∧
      p.forced scope = .ok expressions ∧
      (plan.predicate.map Description.conjuncts).getD [] = forced ++ own ∧
      List.Forall₂ (p.compiler root naming).Describes expressions forced ∧
      List.Forall₂ (p.compiler root naming).Describes (naming.decompose params) own := by
  obtain ⟨r, hcheck, rfl⟩ := exists_check_of_plan_eq_ok h
  obtain ⟨expressions, hroot, hexpressions, hforced, hown⟩ := check_eq_ok hcheck
  refine ⟨r.root, expressions, r.forced.map fun f => (f.ref, f.comparison),
    r.own.map fun f => (f.ref, f.comparison), hroot, hexpressions, ?_, ?_, ?_⟩
  · rw [Describer.conjuncts_plan, CheckedRequest.filters, List.map_append]
  · rw [List.forall₂_map_right_iff]
    exact (mapM_eq_ok_iff.1 hforced).imp fun _ _ => Compiler.describes_of_check
  · rw [List.forall₂_map_right_iff]
    exact (mapM_eq_ok_iff.1 hown).imp fun _ _ => Compiler.describes_of_check

/-- Every filter of the request has its conjunct. -/
theorem exists_conjunct_of_plan {e : FilterExpression}
    (h : (p.plan entity params naming scope s).1 = .ok plan) (he : e ∈ naming.decompose params) :
    ∃ root described, p.registry.schema entity = .ok root ∧ plan.predicate = some described ∧
      ∃ leaf ∈ described.conjuncts, (p.compiler root naming).Describes e leaf := by
  obtain ⟨root, -, forced, own, hroot, -, hconjuncts, -, hown⟩ := conjuncts_of_plan h
  obtain ⟨leaf, hleaf, hdescribes⟩ := exists_of_mem_forall₂ hown he
  cases hpredicate : plan.predicate with
  | none =>
    have hnone : forced ++ own = [] := by simpa [hpredicate] using hconjuncts.symm
    rw [(List.append_eq_nil_iff.1 hnone).2] at hleaf
    cases hleaf
  | some described =>
    have hsome : described.conjuncts = forced ++ own := by simpa [hpredicate] using hconjuncts
    refine ⟨root, described, hroot, rfl, leaf, ?_, hdescribes⟩
    rw [hsome]
    exact List.mem_append_right _ hleaf

end Planner

namespace Naming

/-- A parameter with the mark of filters, without that of operators and with a value states a
filter; the operator is the word of the companion. -/
theorem mem_decompose {params : Params} {path value : String}
    (hmark : ¬ Text.endsWith operatorMark (filterMark ++ path))
    (hvalue : ¬ Text.isBlankText value) (hstated : params.get? (filterMark ++ path) = some value) :
    .ofField path (.ofName ((params.get? (filterMark ++ path ++ operatorMark)).getD
      Operator.eq.name)) value ∈ v1.decompose params := by
  have hstart : Text.startsWith filterMark (filterMark ++ path) := startsWith_append ..
  have hselected : (filterMark ++ path, value) ∈ v1.selected params := by
    refine List.mem_filter.2 ⟨Dict.get?_eq_some_iff.1 hstated, ?_⟩
    simp [isFilter, hstart, hmark, hvalue]
  refine List.mem_map.2 ⟨_, hselected, ?_⟩
  simp [extract, Text.dropStart?_append]

end Naming

/-- **A stated filter is never passed over.** If the parameters have a filter on a path, in `v1`
and with a value, then the request is refused, or its predicate has a conjunct on exactly this path,
with the test that the filter is. This is for every path with which the parameter's name does not
end like that of a companion. -/
theorem stated_filter_is_a_conjunct (p : Planner) (entity : String) (params : Params)
    (scope : AccessScope) (s : Describer) {path value : String}
    (hmark : ¬ Text.endsWith Naming.operatorMark (Naming.filterMark ++ path))
    (hvalue : ¬ Text.isBlankText value)
    (hstated : params.get? (Naming.filterMark ++ path) = some value) :
    (∃ error, (p.plan entity params .v1 scope s).1 = .error error) ∨
      ∃ plan root described, (p.plan entity params .v1 scope s).1 = .ok plan ∧
        p.registry.schema entity = .ok root ∧ plan.predicate = some described ∧
        ∃ leaf ∈ described.conjuncts, leaf.1 = .ofPath path ∧ leaf.1.text = path ∧
          (p.compiler root .v1).Describes (.ofField path (.ofName
            ((params.get? (Naming.filterMark ++ path ++ Naming.operatorMark)).getD
              Operator.eq.name)) value) leaf := by
  cases hplan : (p.plan entity params .v1 scope s).1 with
  | error error => exact .inl ⟨error, rfl⟩
  | ok plan =>
    obtain ⟨root, described, hroot, hpredicate, leaf, hleaf, hdescribes⟩ :=
      Planner.exists_conjunct_of_plan hplan (Naming.mem_decompose hmark hvalue hstated)
    have htext : leaf.1.text = path := by
      rw [hdescribes.text, FilterExpression.field_ofField]
    exact .inr ⟨plan, root, described, rfl, hroot, hpredicate, leaf, hleaf, hdescribes.field,
      htext, hdescribes⟩

/-- Among the orders of one's own those with certain totals, and those of the customer with the
number 8; the companion has a companion. -/
def orderParams : Params :=
  .ofList [("f_total", "20,30"), ("f_total_op", "between"), ("f_total_op_op", "in"),
    ("f_user.id", "8")]

/-- The range of totals is in the predicate, beside the scope and the other filter. -/
theorem stated_filter_is_a_conjunct_of_orders :
    ¬ Text.endsWith Naming.operatorMark (Naming.filterMark ++ "total") ∧
      ¬ Text.isBlankText "20,30" ∧ orderParams.get? (Naming.filterMark ++ "total") = some "20,30" ∧
      ∃ plan described, (shopPlanner.plan "order" orderParams .v1 (ownOrders (some ⟨7, "ann"⟩))
          ({} : Describer)).1 = .ok plan ∧ plan.predicate = some described ∧
        ∃ leaf ∈ described.conjuncts, leaf.1 = .ofPath "total" := by
  have hmark : ¬ Text.endsWith Naming.operatorMark (Naming.filterMark ++ "total") := by decide
  have hvalue : ¬ Text.isBlankText "20,30" := by decide
  have hstated : orderParams.get? (Naming.filterMark ++ "total") = some "20,30" := by decide +kernel
  have hsome : (shopPlanner.plan "order" orderParams .v1 (ownOrders (some ⟨7, "ann"⟩))
      ({} : Describer)).1.toOption.isSome := by decide +kernel
  refine ⟨hmark, hvalue, hstated, ?_⟩
  obtain ⟨error, herror⟩ | ⟨plan, root, described, hplan, -, hpredicate, leaf, hleaf, hfield, -⟩ :=
    stated_filter_is_a_conjunct shopPlanner "order" orderParams (ownOrders (some ⟨7, "ann"⟩)) {}
      hmark hvalue hstated
  · rw [herror] at hsome
    cases hsome
  · exact ⟨plan, described, hplan, hpredicate, leaf, hleaf, hfield⟩

/-- Lines with two numbers; a filter on either is written like a companion. -/
def busLines : Schema :=
  (Schema.new "line" "lines").scalar "id" .long |>.scalar "op" .long |>.scalar "stop_op" .long

/-- The model is accepted and the fields are there. What is written like a filter on one of them is
taken for a companion, and all lines are searched. -/
theorem filter_named_like_companion_is_passed_over :
    (Registry.ofList [busLines]).validate = .ok () ∧
      (Registry.ofList [busLines]).schema "line" = .ok busLines ∧
      ∀ path ∈ ["op", "stop_op"],
        (∃ resolved, (Registry.ofList [busLines]).resolve busLines (Text.split '.' path) =
          .ok resolved) ∧
        ¬ Text.isBlankText "5" ∧
        (Dict.ofList [("f_" ++ path, "5")]).get? ("f_" ++ path) = some "5" ∧
        (({ registry := .ofList [busLines] } : Planner).plan "line" (.ofList [("f_" ++ path, "5")])
          .v1 ⟨⟨"line:read", "all"⟩, none⟩ ({} : Describer)).1.map SearchPlan.predicate =
            .ok none := by
  refine ⟨by decide +kernel, by decide +kernel, ?_⟩
  intro path hpath
  obtain rfl | hpath := List.mem_cons.1 hpath
  · exact ⟨⟨_, rfl⟩, by decide, by decide +kernel, by decide +kernel⟩
  · obtain rfl := List.mem_singleton.1 hpath
    exact ⟨⟨_, rfl⟩, by decide, by decide +kernel, by decide +kernel⟩

end QuerySieve
