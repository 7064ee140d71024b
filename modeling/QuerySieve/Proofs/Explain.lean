import QuerySieve.Explain
import QuerySieve.Proofs.Search

/-!
# QuerySieve.Proofs.Explain

**What is explained is what is searched.**

An explanation plans for a describer, reads the window and plans once more for the database; a
search reads the window and plans for the database only. Planning is checking, then building, so
every builder is given a plan or none is (`explain_of_plan_error`). What is left is the order of the
stages: where the plan and the window are both refused, the explanation tells the first and the
search the second.
-/

namespace QuerySieve

variable {κ : Type} {conn : Connection κ}

/-- The connection answers every statement with rows, and a count with a number. -/
structure Connection.Answering (conn : Connection κ) : Prop where
  rows : ∀ statement state, ∃ rows, (conn.answer statement state).1 = .ok rows
  total : ∀ root predicate state rows,
    (conn.answer (Sql.selectCount root predicate) state).1 = .ok rows →
      ∃ total, countedTotal rows = .ok total

/-- On a connection that answers, a page is the rows of the selection with the graph loaded. -/
theorem Connection.Answering.findPage_eq (hconn : conn.Answering) (reg : Registry) (root : Schema)
    (predicate : Option Sql.Predicate) (graph : FetchGraph) (page : PageRequest)
    (session : Session κ) :
    ∃ total rows loaded final,
      (conn.answer (Sql.selectPage root predicate page)
        (conn.stateAfter session.state [Sql.selectCount root predicate])).1 = .ok rows ∧
      EagerLoad.load reg conn graph.forest root rows (conn.sessionAfter session
        [Sql.selectCount root predicate, Sql.selectPage root predicate page]) = (loaded, final) ∧
      findPage reg conn root predicate graph page session =
        (loaded.map fun rows => ⟨rows, ⟨page.offset, page.limit, total⟩⟩, final) := by
  obtain ⟨counted, hcounted⟩ := hconn.rows (Sql.selectCount root predicate) session.state
  obtain ⟨total, htotal⟩ := hconn.total root predicate _ counted hcounted
  obtain ⟨rows, hrows⟩ := hconn.rows (Sql.selectPage root predicate page)
    (conn.sessionAfter session [Sql.selectCount root predicate]).state
  rcases hload : EagerLoad.load reg conn graph.forest root rows (conn.sessionAfter session
    [Sql.selectCount root predicate, Sql.selectPage root predicate page]) with ⟨loaded, final⟩
  refine ⟨total, rows, loaded, final, hrows, hload, ?_⟩
  have hboth := conn.sessionAfter_append session [Sql.selectCount root predicate]
    [Sql.selectPage root predicate page]
  rw [List.singleton_append] at hboth
  simp only [findPage, query_of_answer _ hcounted, htotal, query_of_answer _ hrows, ← hboth, hload]
  cases loaded <;> rfl

namespace Planner

variable {p : Planner} {entity : String} {params : Params} {naming : Naming} {scope : AccessScope}
variable {page : PageRequest}

/-! ### The stages of an explanation -/

theorem explain_of_plan_error {error : FilterError}
    (hplan : (p.plan entity params naming scope ({} : Sql.Builder)).1 = .error error) :
    p.explain entity params naming scope = .error error := by
  rw [plan_fst] at hplan
  rw [explain, describe, plan_fst]
  cases hcheck : p.check entity params naming scope with
  | error other =>
    rw [hcheck] at hplan
    exact congrArg Except.error (Except.error.inj hplan)
  | ok r => simp [hcheck, Except.map] at hplan

/-- A request that is planned for a database is described. -/
theorem exists_describe_of_plan {plan : SearchPlan Sql.Predicate}
    (hplan : (p.plan entity params naming scope ({} : Sql.Builder)).1 = .ok plan) :
    ∃ words, p.describe entity params naming scope = .ok words := by
  obtain ⟨r, hcheck, -⟩ := exists_check_of_plan_eq_ok hplan
  exact ⟨_, by rw [describe, plan_fst, hcheck]; rfl⟩

theorem explain_of_page_error {plan : SearchPlan Sql.Predicate} {error : FilterError}
    (hplan : (p.plan entity params naming scope ({} : Sql.Builder)).1 = .ok plan)
    (hpage : PageRequest.ofParams params p.settings.limits = .error error) :
    p.explain entity params naming scope = .error error := by
  obtain ⟨words, hwords⟩ := exists_describe_of_plan hplan
  obtain ⟨root, hroot⟩ := exists_schema_of_plan hplan
  rw [explain, hwords, pageStatement, hroot, hpage]
  rfl

theorem explain_of_plan {plan : SearchPlan Sql.Predicate} {root : Schema}
    (hroot : p.registry.schema entity = .ok root)
    (hplan : (p.plan entity params naming scope ({} : Sql.Builder)).1 = .ok plan)
    (hpage : PageRequest.ofParams params p.settings.limits = .ok page) :
    ∃ words, p.explain entity params naming scope =
      .ok ⟨words, Sql.selectPage root plan.predicate page, plan.graph⟩ := by
  obtain ⟨words, hwords⟩ := exists_describe_of_plan hplan
  refine ⟨words, ?_⟩
  rw [explain, hwords, pageStatement, hroot, hpage, hplan]
  rfl

/-! ### Explaining and searching -/

/-- On a connection that answers, a request that is planned is counted, selected and loaded. -/
theorem search_of_answering {plan : SearchPlan Sql.Predicate} {root : Schema}
    (hconn : conn.Answering) (session : Session κ) (hroot : p.registry.schema entity = .ok root)
    (hpage : PageRequest.ofParams params p.settings.limits = .ok page)
    (hplan : (p.plan entity params p.settings.naming scope ({} : Sql.Builder)).1 = .ok plan) :
    ∃ total rows loaded final asked,
      (conn.answer (Sql.selectPage root plan.predicate page)
        (conn.stateAfter session.state [Sql.selectCount root plan.predicate])).1 = .ok rows ∧
      EagerLoad.load p.registry conn plan.graph.forest root rows (conn.sessionAfter session
        [Sql.selectCount root plan.predicate, Sql.selectPage root plan.predicate page]) =
          (loaded, final) ∧
      p.search conn entity params scope session =
        ((loaded.map fun rows => (⟨rows, ⟨page.offset, page.limit, total⟩⟩ : Page Json)).mapError
          .storage, final) ∧
      final.issued = session.issued ++ Sql.selectCount root plan.predicate ::
        Sql.selectPage root plan.predicate page :: asked ∧
      plan.graph.forest.LoadedBy p.registry root asked := by
  obtain ⟨total, rows, loaded, final, hrows, hload, hfound⟩ :=
    hconn.findPage_eq p.registry root plan.predicate plan.graph page session
  obtain ⟨asked, hasked, hedges⟩ := EagerLoad.load_asks p.registry conn plan.graph.forest root
    rows (conn.sessionAfter session
      [Sql.selectCount root plan.predicate, Sql.selectPage root plan.predicate page])
  rw [hload] at hasked
  refine ⟨total, rows, loaded, final, asked, hrows, hload, ?_, ?_, hedges⟩
  · rw [search_of_plan session hroot hpage hplan, hfound]
  · rw [hasked.issued]
    exact List.append_assoc ..

/-- **What is explained is what is searched.** On a connection that answers, a request is explained
exactly if its search gets to the storage. Then the search counts under the same predicate, issues
the very statement of the explanation and loads the very graph. A request that is not explained is
refused by the search, for the same reason unless both its plan and its window are refused. -/
theorem explain_shows_search (hconn : conn.Answering) (p : Planner) (entity : String)
    (params : Params) (scope : AccessScope) (session : Session κ) :
    ((∃ explanation, p.explain entity params p.settings.naming scope = .ok explanation) ↔
      (p.search conn entity params scope session).2.issued ≠ session.issued) ∧
    (∀ explanation, p.explain entity params p.settings.naming scope = .ok explanation →
      ∃ root predicate page total rows loaded final asked,
        p.registry.schema entity = .ok root ∧
        (p.plan entity params p.settings.naming scope ({} : Sql.Builder)).1 =
          .ok ⟨predicate, explanation.graph⟩ ∧
        PageRequest.ofParams params p.settings.limits = .ok page ∧
        explanation.select = Sql.selectPage root predicate page ∧
        (conn.answer explanation.select
          (conn.stateAfter session.state [Sql.selectCount root predicate])).1 = .ok rows ∧
        EagerLoad.load p.registry conn explanation.graph.forest root rows
          (conn.sessionAfter session [Sql.selectCount root predicate, explanation.select]) =
            (loaded, final) ∧
        p.search conn entity params scope session =
          ((loaded.map fun rows => (⟨rows, ⟨page.offset, page.limit, total⟩⟩ : Page Json)).mapError
            .storage, final) ∧
        final.issued = session.issued ++
          Sql.selectCount root predicate :: explanation.select :: asked ∧
        explanation.graph.forest.LoadedBy p.registry root asked) ∧
    ∀ error, p.explain entity params p.settings.naming scope = .error error →
      ∃ refusal, p.search conn entity params scope session =
          (.error (.refused refusal), session) ∧
        (error = refusal ∨
          (p.plan entity params p.settings.naming scope ({} : Sql.Builder)).1 = .error error ∧
            PageRequest.ofParams params p.settings.limits = .error refusal) := by
  cases hplan : (p.plan entity params p.settings.naming scope ({} : Sql.Builder)).1 with
  | error error =>
    have hexplain := explain_of_plan_error hplan
    obtain ⟨refusal, hsearch, hsame⟩ : ∃ refusal, p.search conn entity params scope session =
        (.error (.refused refusal), session) ∧
          (error = refusal ∨ PageRequest.ofParams params p.settings.limits = .error refusal) := by
      cases hpage : PageRequest.ofParams params p.settings.limits with
      | error refusal => exact ⟨refusal, search_of_page_error session hpage, .inr rfl⟩
      | ok page => exact ⟨error, search_of_plan_error session hpage hplan, .inl rfl⟩
    refine ⟨?_, ?_, fun other hother => ⟨refusal, hsearch, ?_⟩⟩
    · simp [hexplain, hsearch]
    · simp [hexplain]
    · obtain rfl := Except.error.inj (hexplain.symm.trans hother)
      exact hsame.imp_right fun hpage => ⟨rfl, hpage⟩
  | ok plan =>
    cases hpage : PageRequest.ofParams params p.settings.limits with
    | error refusal =>
      have hexplain := explain_of_page_error hplan hpage
      have hsearch : p.search conn entity params scope session =
          (.error (.refused refusal), session) := search_of_page_error session hpage
      refine ⟨?_, ?_, fun other hother => ⟨refusal, hsearch, .inl ?_⟩⟩
      · simp [hexplain, hsearch]
      · simp [hexplain]
      · exact (Except.error.inj (hexplain.symm.trans hother)).symm
    | ok page =>
      obtain ⟨root, hroot⟩ := exists_schema_of_plan hplan
      obtain ⟨words, hexplain⟩ := explain_of_plan hroot hplan hpage
      obtain ⟨total, rows, loaded, final, asked, hrows, hload, hsearch, hissued, hedges⟩ :=
        search_of_answering hconn session hroot hpage hplan
      refine ⟨⟨fun _ => ?_, fun _ => ⟨_, hexplain⟩⟩, fun explanation hother => ?_, ?_⟩
      · rw [hsearch, hissued]
        simp
      · obtain rfl := Except.ok.inj (hexplain.symm.trans hother)
        exact ⟨root, plan.predicate, page, total, rows, loaded, final, asked, hroot, rfl, rfl, rfl,
          hrows, hload, hsearch, hissued, hedges⟩
      · simp [hexplain]

/-- A connection that counts one row, and gives the same row whatever else it is asked. -/
def oneRow : Connection Unit where
  answer statement state :=
    (.ok [if statement.order.isNone then .obj [(Sql.totalColumn, .int 1)]
      else .obj [("id", .int 1), ("user_id", .int 1)]], state)

/-- Asks for a field that customers do not have, on a page that is no number. -/
def twiceRefused : Params := .ofList [("f_title", "Emma"), ("page", "last")]

theorem answering_oneRow : oneRow.Answering where
  rows _ _ := ⟨_, rfl⟩
  total _ _ _ rows hrows := by
    obtain rfl := Except.ok.inj hrows
    exact ⟨1, rfl⟩

/-- The statement that is explained is issued after the count and before the orders are loaded; and
a request with two faults is refused for either of them. -/
theorem explain_shows_search_of_customers :
    oneRow.Answering ∧
      (∃ explanation root predicate asked,
        shopPlanner.explain "user" orderedForTwentyFive .v1 anyCustomer = .ok explanation ∧
        (shopPlanner.search oneRow "user" orderedForTwentyFive anyCustomer ⟨(), []⟩).2.issued =
          Sql.selectCount root predicate :: explanation.select :: asked) ∧
      shopPlanner.explain "user" twiceRefused .v1 anyCustomer =
        .error (.unresolved "title" (.unknownField "title" "user")) ∧
      shopPlanner.search oneRow "user" twiceRefused anyCustomer ⟨(), []⟩ =
        (.error (.refused (.badValue "page" "last" .naturalNumber)), ⟨(), []⟩) := by
  refine ⟨answering_oneRow, ?_, rfl, search_of_page_error _ rfl⟩
  obtain ⟨-, hshown, -⟩ := explain_shows_search answering_oneRow shopPlanner "user"
    orderedForTwentyFive anyCustomer ⟨(), []⟩
  have hsome : (shopPlanner.explain "user" orderedForTwentyFive .v1
      anyCustomer).toOption.isSome := by decide +kernel
  obtain ⟨explanation, hexplain⟩ := exists_ok_of_isSome hsome
  obtain ⟨root, predicate, page, total, rows, loaded, final, asked, -, -, -, -, -, -, hsearch,
    hissued, -⟩ := hshown explanation hexplain
  exact ⟨explanation, root, predicate, asked, hexplain, hsearch ▸ hissued⟩

end Planner

end QuerySieve
