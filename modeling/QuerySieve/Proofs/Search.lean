import Mathlib.Data.List.Forall2
import QuerySieve.Proofs.Access
import QuerySieve.Proofs.Checking
import QuerySieve.Proofs.Session
import QuerySieve.Search

/-!
# QuerySieve.Proofs.Search

**What a search asks the database**, whatever the database answers.

A request is refused before anything is issued, by its window first and by its plan next
(`search_of_page_error`, `search_of_plan_error`). Otherwise the search is `findPage`, which counts,
reads a page and follows the graph. Along the graph each edge is asked about once at most, in the
order of the graph (`load_asks`): the induction is on the forest, and every step only says what
`Outcome.Asked` says, so nothing here depends on where a failure may stand.
-/

namespace QuerySieve

variable {κ : Type} {conn : Connection κ}

/-- The edges of a forest, in the order in which they are loaded: the relations it asks for, and
where each of them leads. -/
def Forest.edges (reg : Registry) : Forest → Schema → List (Schema × Relation)
  | nil, _ => []
  | node name below siblings, owner =>
    match EagerLoad.relationTo reg owner name with
    | .error _ => []
    | .ok (relation, target) =>
      (target, relation) :: (below.edges reg target ++ siblings.edges reg owner)

/-- The statement asks for the children over an edge, of some owners. -/
def AsksAbout (statement : Sql.Statement) (edge : Schema × Relation) : Prop :=
  ∃ keys, statement = Sql.selectChildren edge.1 edge.2 keys

/-- Statements that load a forest: each asks about an edge of its own, in the order of the edges;
edges may be left out. -/
def Forest.LoadedBy (forest : Forest) (reg : Registry) (owner : Schema)
    (asked : List Sql.Statement) : Prop :=
  asked.SublistForall₂ AsksAbout (forest.edges reg owner)

theorem sublistForall₂_append {α β : Type} {R : α → β → Prop} {xs xs' : List α} {ys ys' : List β}
    (h : xs.SublistForall₂ R ys) (h' : xs'.SublistForall₂ R ys') :
    (xs ++ xs').SublistForall₂ R (ys ++ ys') := by
  obtain ⟨zs, hforall, hsublist⟩ := List.sublistForall₂_iff.1 h
  obtain ⟨zs', hforall', hsublist'⟩ := List.sublistForall₂_iff.1 h'
  exact List.sublistForall₂_iff.2
    ⟨zs ++ zs', List.rel_append hforall hforall', hsublist.append hsublist'⟩

namespace EagerLoad

variable {owner target : Schema} {relation : Relation} {name : String}

theorem fetch_asks (rows : List Json) (session : Session κ) :
    ∃ asked, Outcome.Asked conn session asked
        (fetch conn owner name relation target rows session) ∧
      asked.SublistForall₂ AsksAbout [(target, relation)] := by
  unfold fetch
  cases (distinctKeys rows relation.localKey).values with
  | nil => exact ⟨[], .nothing _, .nil⟩
  | cons key keys => exact ⟨_, .query _ _, .cons ⟨key :: keys, rfl⟩ .nil⟩

/-- **Loading asks about the edges in their order**, each once at most. -/
theorem load_asks (reg : Registry) (conn : Connection κ) (forest : Forest) (owner : Schema)
    (rows : List Json) (session : Session κ) :
    ∃ asked, Outcome.Asked conn session asked (load reg conn forest owner rows session) ∧
      forest.LoadedBy reg owner asked := by
  induction forest generalizing owner rows session with
  | nil => exact ⟨[], .nothing _, .nil⟩
  | node name below siblings ihBelow ihSiblings =>
    rw [load]
    split
    · exact ⟨[], .nothing _, .nil⟩
    · unfold Forest.LoadedBy Forest.edges
      cases relationTo reg owner name with
      | error cause => exact ⟨[], .nothing _, .nil⟩
      | ok found =>
        obtain ⟨relation, target⟩ := found
        obtain ⟨asked, hasked, hedge⟩ : ∃ asked, Outcome.Asked conn session asked
            (fetch conn owner name relation target rows session) ∧
              asked.SublistForall₂ AsksAbout [(target, relation)] := fetch_asks rows session
        rcases hfetch : fetch conn owner name relation target rows session with ⟨outcome, s₁⟩
        rw [hfetch] at hasked
        simp only [hfetch]
        cases outcome with
        | error failure =>
          -- nothing below the edge or beside it is asked for any more
          refine ⟨asked, hasked.of_error, ?_⟩
          simpa using sublistForall₂_append hedge .nil
        | ok fetched =>
          obtain ⟨asked₁, hasked₁, hbelow⟩ :=
            ihBelow target (fetched.map (stripOwner relation)) s₁
          rcases hload : load reg conn below target (fetched.map (stripOwner relation)) s₁ with
            ⟨outcome, s₂⟩
          rw [hload] at hasked₁
          simp only [hload]
          cases outcome with
          | error failure =>
            -- the failure below has ended the siblings' turn as well
            refine ⟨asked ++ asked₁, hasked.append hasked₁.of_error, ?_⟩
            simpa using sublistForall₂_append hedge (sublistForall₂_append hbelow .nil)
          | ok children =>
            obtain ⟨asked₂, hasked₂, hsiblings⟩ := ihSiblings owner (attach name relation
              ((fetched.map (rowKey? (ownerColumn relation))).zip children) rows) s₂
            exact ⟨asked ++ (asked₁ ++ asked₂), hasked.append (hasked₁.append hasked₂),
              sublistForall₂_append hedge (sublistForall₂_append hbelow hsiblings)⟩

end EagerLoad

/-- **A page is read by a count, a selection and the edges of its graph**, as far as that goes. -/
theorem findPage_asks (reg : Registry) (conn : Connection κ) (root : Schema)
    (predicate : Option Sql.Predicate) (graph : FetchGraph) (page : PageRequest)
    (session : Session κ) :
    ∃ statements asked, Outcome.Asked conn session statements
        (findPage reg conn root predicate graph page session) ∧
      graph.forest.LoadedBy reg root asked ∧
      statements <+: Sql.selectCount root predicate :: Sql.selectPage root predicate page ::
        asked := by
  have hcount : Outcome.Asked conn session [Sql.selectCount root predicate]
      (conn.query ("counting `" ++ root.name ++ "`") (Sql.selectCount root predicate) session) :=
    .query _ _
  have hcountOnly : [Sql.selectCount root predicate] <+:
      [Sql.selectCount root predicate, Sql.selectPage root predicate page] := ⟨[_], rfl⟩
  rcases hcounted : conn.query ("counting `" ++ root.name ++ "`") (Sql.selectCount root predicate)
    session with ⟨outcome, s₁⟩
  rw [hcounted] at hcount
  simp only [findPage, hcounted]
  cases outcome with
  | error failure => exact ⟨_, [], hcount.of_error, .nil, hcountOnly⟩
  | ok counted =>
    cases htotal : countedTotal counted with
    | error text =>
      -- the count was answered, but not with a number
      simp only [htotal]
      exact ⟨_, [], hcount.finish _, .nil, hcountOnly⟩
    | ok total =>
      have hselect : Outcome.Asked conn s₁ [Sql.selectPage root predicate page]
          (conn.query ("selecting `" ++ root.name ++ "`") (Sql.selectPage root predicate page)
            s₁) := .query _ _
      rcases hselected : conn.query ("selecting `" ++ root.name ++ "`")
        (Sql.selectPage root predicate page) s₁ with ⟨outcome, s₂⟩
      rw [hselected] at hselect
      simp only [htotal, hselected]
      cases outcome with
      | error failure => exact ⟨_, [], hcount.append hselect.of_error, .nil, List.prefix_rfl⟩
      | ok rows =>
        obtain ⟨asked, hasked, hedges⟩ :=
          EagerLoad.load_asks reg conn graph.forest root rows s₂
        rcases hload : EagerLoad.load reg conn graph.forest root rows s₂ with ⟨outcome, s₃⟩
        rw [hload] at hasked
        simp only [hload]
        refine ⟨_, asked, ?_, hedges, List.prefix_rfl⟩
        cases outcome with
        | error failure => exact hcount.append (hselect.append hasked.of_error)
        | ok rows => exact hcount.append (hselect.append (hasked.finish _))

namespace Planner

variable {p : Planner} {entity : String} {params : Params} {scope : AccessScope}

/-! ### The stages of a search -/

theorem search_of_page_error {refusal : FilterError} (session : Session κ)
    (hpage : PageRequest.ofParams params p.settings.limits = .error refusal) :
    p.search conn entity params scope session = (.error (.refused refusal), session) := by
  rw [search, hpage]

theorem search_of_plan_error {page : PageRequest} {refusal : FilterError} (session : Session κ)
    (hpage : PageRequest.ofParams params p.settings.limits = .ok page)
    (hplan : (p.plan entity params p.settings.naming scope ({} : Sql.Builder)).1 =
      .error refusal) :
    p.search conn entity params scope session = (.error (.refused refusal), session) := by
  rw [search, hpage]
  simp only [searchWindow, hplan]

/-- An entity that has been planned for is one of the model. -/
theorem exists_schema_of_plan {σ Path Predicate : Type} [PredicateBuilder σ Path Predicate] {s : σ}
    {naming : Naming} {plan : SearchPlan Predicate}
    (hplan : (p.plan entity params naming scope s).1 = .ok plan) :
    ∃ root, p.registry.schema entity = .ok root := by
  obtain ⟨r, hcheck, -⟩ := exists_check_of_plan_eq_ok hplan
  obtain ⟨-, hroot, -⟩ := check_eq_ok hcheck
  exact ⟨r.root, hroot⟩

/-- A request that is planned reaches the storage. -/
theorem search_of_plan {root : Schema} {page : PageRequest} {plan : SearchPlan Sql.Predicate}
    (session : Session κ) (hroot : p.registry.schema entity = .ok root)
    (hpage : PageRequest.ofParams params p.settings.limits = .ok page)
    (hplan : (p.plan entity params p.settings.naming scope ({} : Sql.Builder)).1 = .ok plan) :
    p.search conn entity params scope session =
      ((findPage p.registry conn root plan.predicate plan.graph page session).1.mapError .storage,
        (findPage p.registry conn root plan.predicate plan.graph page session).2) := by
  rw [search, hpage]
  simp only [searchWindow, hplan, hroot]

/-! ### The course of a search -/

/-- **A refused request asks nothing, and a failing one stops at once**, on a scripted connection as
on any other. Either a search is refused and leaves the session as it was. Or its statements are a
beginning of the count, the selection under the same predicate and the questions of its graph; a
statement that fails is the last one; and the search then fails as a storage, of which a client is
told the same whatever failed. -/
theorem search_stops_at_once (p : Planner) (conn : Connection κ) (entity : String)
    (params : Params) (scope : AccessScope) (session : Session κ) :
    (∃ refusal, p.search conn entity params scope session =
      (.error (.refused refusal), session)) ∨
    ∃ root predicate graph page statements asked result final,
      p.registry.schema entity = .ok root ∧
      (p.plan entity params p.settings.naming scope ({} : Sql.Builder)).1 =
        .ok ⟨predicate, graph⟩ ∧
      PageRequest.ofParams params p.settings.limits = .ok page ∧
      p.search conn entity params scope session = (result, final) ∧
      (∀ refusal, result ≠ .error (.refused refusal)) ∧
      final.issued = session.issued ++ statements ∧
      graph.forest.LoadedBy p.registry root asked ∧
      statements <+: Sql.selectCount root predicate :: Sql.selectPage root predicate page ::
        asked ∧
      ∀ before statement after text, statements = before ++ statement :: after →
        (conn.answer statement (conn.stateAfter session.state before)).1 = .error text →
          after = [] ∧ ∃ failure, result = .error (.storage failure) ∧
            ∀ other occurrence, (SearchError.storage failure).problem occurrence =
              (SearchError.storage other).problem occurrence := by
  cases hpage : PageRequest.ofParams params p.settings.limits with
  | error refusal => exact .inl ⟨refusal, search_of_page_error session hpage⟩
  | ok page =>
    cases hplan : (p.plan entity params p.settings.naming scope ({} : Sql.Builder)).1 with
    | error refusal => exact .inl ⟨refusal, search_of_plan_error session hpage hplan⟩
    | ok plan =>
      right
      obtain ⟨root, hroot⟩ := exists_schema_of_plan hplan
      obtain ⟨statements, asked, hasked, hedges, hprefix⟩ :=
        findPage_asks p.registry conn root plan.predicate plan.graph page session
      refine ⟨root, plan.predicate, plan.graph, page, statements, asked, _, _, hroot, rfl, rfl,
        search_of_plan session hroot hpage hplan, ?_, hasked.issued, hedges, hprefix, ?_⟩
      · intro refusal hrefused
        cases hresult :
            (findPage p.registry conn root plan.predicate plan.graph page session).1 with
        | error failure => simp [hresult, Except.mapError] at hrefused
        | ok found => simp [hresult, Except.mapError] at hrefused
      · intro before statement after text hsplit hfailed
        obtain ⟨hlast, contexts, hresult⟩ := hasked.ends hsplit hfailed
        refine ⟨hlast, ⟨.database text, contexts⟩, by rw [hresult]; rfl, ?_⟩
        exact fun other occurrence => SearchError.problem_storage _ other occurrence

/-- May read all customers. -/
def anyCustomer : AccessScope := ⟨⟨"user:read", "all"⟩, none⟩

/-- Asks for the customers with an order of 25, with all their orders. -/
def orderedForTwentyFive : Params :=
  .ofList [("f_orders.total", "25"), ("embedded", "orders")]

/-- One customer is counted, and then the connection is lost. There is an answer left. -/
def lostPage : List ScriptLine :=
  [.rows [.obj [(Sql.totalColumn, .int 1)]], .failure "connection lost", .rows []]

/-- Without the page nobody asks for the orders. -/
theorem search_stops_at_once_of_lost_page :
    ∃ root predicate page failure final,
      shopPlanner.search .scripted "user" orderedForTwentyFive anyCustomer ⟨lostPage, []⟩ =
        (.error (.storage failure), final) ∧
      final.issued = [Sql.selectCount root predicate, Sql.selectPage root predicate page] ∧
      ∀ other occurrence, (SearchError.storage failure).problem occurrence =
        (SearchError.storage other).problem occurrence := by
  have htwo : (shopPlanner.search .scripted "user" orderedForTwentyFive anyCustomer
      ⟨lostPage, []⟩).2.issued.length = 2 := by decide +kernel
  obtain ⟨refusal, hrefused⟩ | ⟨root, predicate, graph, page, statements, asked, result, final,
    -, -, -, hsearch, -, hissued, -, hprefix, hends⟩ := search_stops_at_once shopPlanner .scripted
      "user" orderedForTwentyFive anyCustomer ⟨lostPage, []⟩
  · rw [hrefused] at htwo
    cases htwo
  · rw [hsearch, hissued] at htwo
    obtain ⟨first, second, rfl⟩ := List.length_eq_two.1 htwo
    obtain ⟨rfl, hrest⟩ := List.cons_prefix_cons.1 hprefix
    obtain ⟨rfl, -⟩ := List.cons_prefix_cons.1 hrest
    obtain ⟨-, failure, rfl, hsame⟩ := hends [_] _ [] _ rfl rfl
    exact ⟨root, predicate, page, failure, final, hsearch, hissued, hsame⟩

end Planner

end QuerySieve
