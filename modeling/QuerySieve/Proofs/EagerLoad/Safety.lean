import QuerySieve.Proofs.Graph.Grammar
import QuerySieve.Proofs.Search

/-!
# QuerySieve.Proofs.EagerLoad.Safety

**What was accepted as a graph can be loaded.**

Loading descends through the model on its own and has refusals of its own: a name that is no field,
a field that is no relation, a target that is not in the model. None of them is reached by a graph
that was made from texts for the same entity of the same model, however often it was merged, since
all its names are relations where they stand (`Forest.Legible.fits`). So whatever the rows and
whatever the database gives, the one thing that can fail is a statement (`load_failsByStatement`).
-/

namespace QuerySieve

variable {κ α β : Type} {conn : Connection κ} {session mid : Session κ}

/-! ### Failing by a statement -/

theorem Connection.stateAfter_append (conn : Connection κ) (state : κ)
    (first second : List Sql.Statement) :
    conn.stateAfter state (first ++ second)
      = conn.stateAfter (conn.stateAfter state first) second :=
  List.foldl_append

theorem Connection.Course.stateAfter_eq {state final : κ} {statements : List Sql.Statement}
    {fault : Option String} (h : conn.Course state statements final fault) :
    conn.stateAfter state statements = final := by
  induction h with
  | done => rfl
  | rows hanswer _ ih => rw [← ih, stateAfter, List.foldl_cons, hanswer, stateAfter]
  | failed hanswer => rw [stateAfter, List.foldl_cons, hanswer, List.foldl_nil]

namespace Outcome

/-- If the work fails, then because the last statement that it issued was answered with a failure,
which is the cause that it tells. -/
def FailsByStatement (conn : Connection κ) (session : Session κ) (outcome : Outcome κ α) : Prop :=
  ∀ failure, outcome.1 = .error failure → ∃ before statement text,
    outcome.2.issued = session.issued ++ (before ++ [statement]) ∧
      (conn.answer statement (conn.stateAfter session.state before)).1 = .error text ∧
      failure.cause = .database text

theorem FailsByStatement.ok (result : α) :
    FailsByStatement conn session ((.ok result, mid) : Outcome κ α) :=
  fun _ h => by cases h

theorem FailsByStatement.query (context : String) (statement : Sql.Statement) :
    FailsByStatement conn session (conn.query context statement session) := by
  intro failure h
  rcases hanswer : conn.answer statement session.state with ⟨response, after⟩
  simp only [Connection.query, hanswer] at h ⊢
  cases response with
  | ok rows => cases h
  | error text =>
    obtain rfl := Except.error.inj h
    exact ⟨[], statement, text, rfl, congrArg Prod.fst hanswer, rfl⟩

/-- What fails hands its failure on. -/
theorem FailsByStatement.of_error {failure : StorageFailure}
    (h : FailsByStatement conn session ((.error failure, mid) : Outcome κ α)) :
    FailsByStatement conn session ((.error failure, mid) : Outcome κ β) := by
  intro other hother
  obtain rfl := Except.error.inj hother
  exact h failure rfl

/-- After a success the rest of the work may fail, by a statement of its own. -/
theorem FailsByStatement.append {first : List Sql.Statement} {result : α} {outcome : Outcome κ β}
    (hfirst : Asked conn session first ((.ok result, mid) : Outcome κ α))
    (hsecond : FailsByStatement conn mid outcome) : FailsByStatement conn session outcome := by
  intro failure hfailed
  obtain ⟨before, statement, text, hissued, hanswer, hcause⟩ := hsecond failure hfailed
  have hmid := hfirst.issued
  obtain ⟨fault, hcourse, -, -⟩ := hfirst
  refine ⟨first ++ before, statement, text, ?_, ?_, hcause⟩
  · rw [hissued, hmid, List.append_assoc, List.append_assoc]
  · rw [Connection.stateAfter_append, hcourse.stateAfter_eq]
    exact hanswer

end Outcome

/-! ### Graphs that were accepted -/

/-- Where a name could be read, its relation is there to be loaded. -/
theorem Forest.Legible.fits {reg : Registry} {forest : Forest} {owner : Schema}
    (h : forest.Legible reg owner) : forest.Fits reg owner := by
  induction forest generalizing owner with
  | nil => trivial
  | node name below siblings ihBelow ihSiblings =>
    obtain ⟨⟨-, target, htarget, hbelow⟩, hsiblings⟩ := h
    obtain ⟨relation, hrelation, htarget⟩ := FetchGraph.relationTarget_eq_ok_iff.1 htarget
    exact ⟨⟨relation, target, hrelation, htarget, ihBelow hbelow⟩, ihSiblings hsiblings⟩

/-- What the parameters ask for has been read from a text, be it the empty one. -/
theorem FetchGraph.obtained_of_ofParams {reg : Registry} {root : Schema} {params : Params}
    {graph : FetchGraph} (h : ofParams reg root params = .ok graph) : Obtained reg root graph := by
  unfold ofParams at h
  cases hraw : params.get? embeddedParam with
  | some raw =>
    rw [hraw] at h
    exact .embedded h
  | none =>
    rw [hraw] at h
    exact .embedded (show ofEmbedded reg root "" = .ok graph from h)

namespace EagerLoad

open Outcome

variable {reg : Registry} {owner target : Schema} {relation : Relation} {name : String}

theorem fetch_failsByStatement (rows : List Json) :
    FailsByStatement conn session (fetch conn owner name relation target rows session) := by
  unfold fetch
  cases (distinctKeys rows relation.localKey).values with
  | nil => exact .ok _
  | cons key keys => exact .query _ _

/-- **Loading what fits the model fails by a statement only**, at whatever depth it fails. -/
theorem load_failsByStatement {forest : Forest} (hfits : forest.Fits reg owner) (rows : List Json)
    (session : Session κ) :
    FailsByStatement conn session (load reg conn forest owner rows session) := by
  induction forest generalizing owner rows session with
  | nil => exact .ok _
  | node name below siblings ihBelow ihSiblings =>
    obtain ⟨⟨relation, target, hrelation, htarget, hbelow⟩, hsiblings⟩ := hfits
    rw [load]
    split
    · exact .ok _
    · rw [relationTo_eq_ok hrelation htarget]
      have hfetched : FailsByStatement conn session
          (fetch conn owner name relation target rows session) := fetch_failsByStatement rows
      obtain ⟨asked, hasked, -⟩ : ∃ asked, Asked conn session asked
          (fetch conn owner name relation target rows session) ∧
            asked.SublistForall₂ AsksAbout [(target, relation)] := fetch_asks rows session
      rcases hfetch : fetch conn owner name relation target rows session with ⟨outcome, s₁⟩
      rw [hfetch] at hfetched hasked
      simp only [hfetch]
      cases outcome with
      | error failure => exact hfetched.of_error
      | ok fetched =>
        have hloaded := ihBelow hbelow (fetched.map (stripOwner relation)) s₁
        obtain ⟨asked₁, hasked₁, -⟩ :=
          load_asks reg conn below target (fetched.map (stripOwner relation)) s₁
        rcases hload : load reg conn below target (fetched.map (stripOwner relation)) s₁ with
          ⟨outcome, s₂⟩
        rw [hload] at hloaded hasked₁
        simp only [hload]
        refine .append hasked ?_
        cases outcome with
        | error failure => exact hloaded.of_error
        | ok children => exact .append hasked₁ (ihSiblings hsiblings _ s₂)

/-- **What was accepted can be loaded.** Take a graph that was read from texts or parameters for an
entity, or merged from such graphs. Loading it for rows of that entity in that model, over any
connection, fails only if the last statement that it issued was answered with a failure; and that is
the failure it tells. -/
theorem accepted_graph_loads (reg : Registry) (root : Schema) :
    (∀ params graph, FetchGraph.ofParams reg root params = .ok graph →
        FetchGraph.Obtained reg root graph) ∧
      ∀ graph, FetchGraph.Obtained reg root graph →
        ∀ (κ : Type) (conn : Connection κ) (rows : List Json) (session final : Session κ) failure,
          load reg conn graph.forest root rows session = (.error failure, final) →
            ∃ before statement text, final.issued = session.issued ++ (before ++ [statement]) ∧
              (conn.answer statement (conn.stateAfter session.state before)).1 = .error text ∧
              failure.cause = .database text := by
  refine ⟨fun params graph h => FetchGraph.obtained_of_ofParams h, ?_⟩
  intro graph hgraph κ conn rows session final failure h
  have hfails : FailsByStatement conn session (load reg conn graph.forest root rows session) :=
    load_failsByStatement hgraph.legible.fits rows session
  rw [h] at hfails
  exact hfails failure rfl

/-- A row with the number of its parent. -/
def oneChild : List Json := [.obj [("id", .int 1), ("parent_id", .int 2)]]

/-- From a row to its parent, and from there to the children. -/
def siblingsGraph : FetchGraph := .single "parent" (.single "children" .empty)

/-- The parent is found, and then the connection is lost. -/
def lostChildren : List ScriptLine := [.rows [.obj [("id", .int 2)]], .failure "connection lost"]

/-- The children of the parent are asked for last, and it is this failure that is told. -/
theorem accepted_graph_loads_of_lost_children :
    FetchGraph.ofParams (.ofList [FetchGraph.treeRows]) FetchGraph.treeRows
        (.ofList [("embedded", "parent.children")]) = .ok siblingsGraph ∧
      ∃ failure final,
        load (.ofList [FetchGraph.treeRows]) .scripted siblingsGraph.forest FetchGraph.treeRows
          oneChild ⟨lostChildren, []⟩ = (.error failure, final) ∧
        final.issued.length = 2 ∧ failure.cause = .database "Custom Error: connection lost" := by
  have haccepted : FetchGraph.ofParams (.ofList [FetchGraph.treeRows]) FetchGraph.treeRows
      (.ofList [("embedded", "parent.children")]) = .ok siblingsGraph := by decide +kernel
  have hlost : (load (.ofList [FetchGraph.treeRows]) .scripted siblingsGraph.forest
      FetchGraph.treeRows oneChild ⟨lostChildren, []⟩).1.toOption.isNone := by decide +kernel
  have htwo : (load (.ofList [FetchGraph.treeRows]) .scripted siblingsGraph.forest
      FetchGraph.treeRows oneChild ⟨lostChildren, []⟩).2.issued.length = 2 := by decide +kernel
  obtain ⟨hobtained, hfails⟩ :=
    accepted_graph_loads (.ofList [FetchGraph.treeRows]) FetchGraph.treeRows
  rcases hload : load (.ofList [FetchGraph.treeRows]) .scripted siblingsGraph.forest
      FetchGraph.treeRows oneChild ⟨lostChildren, []⟩ with ⟨failure | rows, final⟩
  · rw [hload] at htwo
    obtain ⟨before, statement, text, hissued, hanswer, hcause⟩ :=
      hfails _ (hobtained _ _ haccepted) _ _ _ _ _ _ hload
    have hone : before.length = 1 := by simpa [hissued] using htwo
    obtain ⟨first, rfl⟩ := List.length_eq_one_iff.1 hone
    obtain rfl := Except.error.inj hanswer
    exact ⟨haccepted, failure, final, rfl, htwo, hcause⟩
  · rw [hload] at hlost
    cases hlost

end EagerLoad

end QuerySieve
