import QuerySieve.Storage

/-!
# QuerySieve.Proofs.Session

**What is asked in a session**, and that nothing is asked after a failure.

`Connection.Course` is a course of statements on a connection: each is answered from the state that
the one before left, and a failure ends the course. `Outcome.Asked` ties it to something done in a
session: these are the statements that it issued, and a course that failed made it fail for that
reason. Steps that follow one another are put together by `Outcome.Asked.append`, so that a longer
piece of work is told step by step.
-/

namespace QuerySieve

variable {κ α β : Type}

namespace Connection

/-- The state of a connection after statements that it answered, in whatever way. -/
def stateAfter (conn : Connection κ) (state : κ) (statements : List Sql.Statement) : κ :=
  statements.foldl (fun state statement => (conn.answer statement state).2) state

/-- A session after statements that it issued. -/
def sessionAfter (conn : Connection κ) (session : Session κ) (statements : List Sql.Statement) :
    Session κ :=
  ⟨conn.stateAfter session.state statements, session.issued ++ statements⟩

/-- Issued one after another from a state, the statements lead to another state. Either all of them
are answered with rows, or the last one is answered with a failure. -/
inductive Course (conn : Connection κ) : κ → List Sql.Statement → κ → Option String → Prop
  | done {state : κ} : Course conn state [] state none
  | rows {state after final : κ} {statement : Sql.Statement} {rows : List Json}
      {statements : List Sql.Statement} {fault : Option String}
      (hanswer : conn.answer statement state = (.ok rows, after))
      (hrest : Course conn after statements final fault) :
      Course conn state (statement :: statements) final fault
  | failed {state after : κ} {statement : Sql.Statement} {text : String}
      (hanswer : conn.answer statement state = (.error text, after)) :
      Course conn state [statement] after (some text)

variable {conn : Connection κ} {state mid final : κ} {first second : List Sql.Statement}
variable {fault : Option String}

theorem sessionAfter_append (conn : Connection κ) (session : Session κ)
    (first second : List Sql.Statement) :
    conn.sessionAfter session (first ++ second) =
      conn.sessionAfter (conn.sessionAfter session first) second := by
  rw [sessionAfter, stateAfter, List.foldl_append, ← List.append_assoc]
  rfl

theorem query_of_answer {statement : Sql.Statement} {session : Session κ} {rows : List Json}
    (context : String) (hanswer : (conn.answer statement session.state).1 = .ok rows) :
    conn.query context statement session = (.ok rows, conn.sessionAfter session [statement]) := by
  simp only [query, hanswer]
  rfl

theorem Course.append (hfirst : Course conn state first mid none)
    (hsecond : Course conn mid second final fault) :
    Course conn state (first ++ second) final fault := by
  generalize hnone : (none : Option String) = outcome at hfirst
  induction hfirst with
  | done => exact hsecond
  | rows hanswer _ ih => exact .rows hanswer (ih hsecond hnone)
  | failed _ => cases hnone

/-- **A failure ends the course.** The statement that is answered with one is the last. -/
theorem Course.ends {before after : List Sql.Statement} {statement : Sql.Statement} {text : String}
    (h : Course conn state (before ++ statement :: after) final fault)
    (hfailed : (conn.answer statement (conn.stateAfter state before)).1 = .error text) :
    after = [] ∧ fault = some text := by
  induction before generalizing state with
  | nil =>
    cases h with
    | rows hanswer _ =>
      rw [stateAfter, List.foldl_nil, hanswer] at hfailed
      cases hfailed
    | failed hanswer =>
      rw [stateAfter, List.foldl_nil, hanswer] at hfailed
      exact ⟨rfl, congrArg some (Except.error.inj hfailed)⟩
  | cons other before ih =>
    cases hcourse : before ++ statement :: after with
    | nil => simp at hcourse
    | cons next rest =>
      rw [List.cons_append, hcourse] at h
      cases h with
      | rows hanswer hrest =>
        rw [stateAfter, List.foldl_cons, hanswer] at hfailed
        exact ih (hcourse ▸ hrest) hfailed

end Connection

namespace Outcome

variable {conn : Connection κ} {session mid : Session κ} {first second : List Sql.Statement}

/-- These statements have been issued since the session was as given. If one of them failed, the
outcome is the failure that tells why. -/
def Asked (conn : Connection κ) (session : Session κ) (statements : List Sql.Statement)
    (outcome : Outcome κ α) : Prop :=
  ∃ fault, conn.Course session.state statements outcome.2.state fault ∧
    outcome.2.issued = session.issued ++ statements ∧
    ∀ text, fault = some text → ∃ contexts, outcome.1 = .error ⟨.database text, contexts⟩

theorem Asked.issued {statements : List Sql.Statement} {outcome : Outcome κ α}
    (h : Asked conn session statements outcome) :
    outcome.2.issued = session.issued ++ statements := by
  obtain ⟨-, -, hissued, -⟩ := h
  exact hissued

/-- Nothing is issued by what leaves the session as it was. -/
theorem Asked.nothing (result : Except StorageFailure α) :
    Asked conn session [] ((result, session) : Outcome κ α) :=
  ⟨none, .done, (List.append_nil _).symm, fun _ hnone => by cases hnone⟩

theorem Asked.query (context : String) (statement : Sql.Statement) :
    Asked conn session [statement] (conn.query context statement session) := by
  rcases hanswer : conn.answer statement session.state with ⟨response, after⟩
  unfold Connection.query
  rw [hanswer]
  cases response with
  | ok rows => exact ⟨none, .rows hanswer .done, rfl, fun _ hnone => by cases hnone⟩
  | error text =>
    refine ⟨some text, .failed hanswer, rfl, fun other hother => ?_⟩
    cases hother
    exact ⟨[context], rfl⟩

/-- What fails hands its failure on. -/
theorem Asked.of_error {failure : StorageFailure}
    (h : Asked conn session first ((.error failure, mid) : Outcome κ α)) :
    Asked conn session first ((.error failure, mid) : Outcome κ β) := by
  obtain ⟨fault, hcourse, hissued, hfault⟩ := h
  refine ⟨fault, hcourse, hissued, fun text htext => ?_⟩
  obtain ⟨contexts, hfailed⟩ := hfault text htext
  exact ⟨contexts, congrArg Except.error (Except.error.inj hfailed)⟩

/-- Work that goes on after a success goes on with its statements. -/
theorem Asked.append {result : α} {outcome : Outcome κ β}
    (hfirst : Asked conn session first ((.ok result, mid) : Outcome κ α))
    (hsecond : Asked conn mid second outcome) : Asked conn session (first ++ second) outcome := by
  obtain ⟨fault, hcourse, hissued, hfault⟩ := hfirst
  obtain ⟨fault', hcourse', hissued', hfault'⟩ := hsecond
  cases fault with
  | some text =>
    obtain ⟨contexts, hfailed⟩ := hfault text rfl
    cases hfailed
  | none =>
    refine ⟨fault', hcourse.append hcourse', ?_, hfault'⟩
    rw [hissued', hissued, List.append_assoc]

/-- What is done with the result of a success, without a statement of its own. -/
theorem Asked.finish {result : α} (h : Asked conn session first ((.ok result, mid) : Outcome κ α))
    (outcome : Except StorageFailure β) :
    Asked conn session first ((outcome, mid) : Outcome κ β) :=
  List.append_nil first ▸ h.append (.nothing outcome)

/-- **After a failure no statement follows**, and the outcome tells that failure. -/
theorem Asked.ends {statements before after : List Sql.Statement} {outcome : Outcome κ α}
    {statement : Sql.Statement} {text : String} (h : Asked conn session statements outcome)
    (hsplit : statements = before ++ statement :: after)
    (hfailed : (conn.answer statement (conn.stateAfter session.state before)).1 = .error text) :
    after = [] ∧ ∃ contexts, outcome.1 = .error ⟨.database text, contexts⟩ := by
  obtain ⟨fault, hcourse, -, hfault⟩ := h
  obtain ⟨hlast, hreason⟩ := (hsplit ▸ hcourse).ends hfailed
  exact ⟨hlast, hfault text hreason⟩

end Outcome

end QuerySieve
