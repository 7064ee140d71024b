import QuerySieve.Proofs.EagerLoad.Keys
import QuerySieve.Proofs.EagerLoad.Safety

/-!
# QuerySieve.Proofs.EagerLoad.Statements

**One statement for an edge, however many rows there are.**

Which statements a load issues hangs on what every earlier one was answered: a batch without rows
or without keys is not asked about. `arrivals` follows a load and notes, for each edge of the graph,
the batch of rows with which it comes there. The edges are those of the graph, in the order of their
chains (`path_arrivals`, `Forest.Ordered.pairwise_paths`), whatever the rows; and the statements are
the questions of the batches that have a key (`issued_load`). Both are inductions over the forest.
-/

namespace QuerySieve

/-! ### The edges of a graph -/

/-- The relation and the entity at the end of a chain of relations, which starts at an entity. -/
inductive Registry.EdgeAt (reg : Registry) : Schema → List String → Relation → Schema → Prop
  | here {owner target : Schema} {name : String} {relation : Relation}
      (hrelation : owner.relationAt? name = some relation)
      (htarget : reg.entities.get? relation.target = some target) :
      EdgeAt reg owner [name] relation target
  | along {owner next target : Schema} {name : String} {path : List String}
      {through relation : Relation} (hrelation : owner.relationAt? name = some through)
      (htarget : reg.entities.get? through.target = some next)
      (hrest : EdgeAt reg next path relation target) :
      EdgeAt reg owner (name :: path) relation target

namespace Forest

/-- The chains that lead to the edges: an edge before those below it, and those before its
siblings. -/
def paths : Forest → List (List String)
  | nil => []
  | node name below siblings => [name] :: (below.paths.map (name :: ·) ++ siblings.paths)

theorem mem_paths_iff {a : Forest} {path : List String} :
    path ∈ a.paths ↔ path ≠ [] ∧ a.HasChain path := by
  induction a generalizing path with
  | nil => cases path <;> simp [paths]
  | node name below siblings ihBelow ihSiblings =>
    cases path with
    | nil => simp [paths, ihSiblings]
    | cons first rest =>
      simp only [paths, List.mem_cons, List.mem_append, List.mem_map, ihBelow, ihSiblings,
        hasChain_node]
      cases rest <;> simp [eq_comm, and_comm]

/-- **The order of the edges** is that of their chains, name by name. -/
theorem Ordered.pairwise_paths {a : Forest} (h : a.Ordered) : a.paths.Pairwise (· < ·) := by
  induction a with
  | nil => exact .nil
  | node name below siblings ihBelow ihSiblings =>
    obtain ⟨-, hbelow, hsiblings⟩ := ordered_node.1 h
    have hlater : ∀ path ∈ siblings.paths, ∀ rest, name :: rest < path := by
      intro path hpath rest
      obtain ⟨hne, hchain⟩ := mem_paths_iff.1 hpath
      obtain ⟨first, later, rfl⟩ := List.exists_cons_of_ne_nil hne
      exact List.cons_lt_cons_iff.2 (.inl (h.lt_of_hasChain hchain))
    refine List.pairwise_cons.2 ⟨fun path hpath => ?_, List.pairwise_append.2 ⟨?_, ?_, ?_⟩⟩
    · rcases List.mem_append.1 hpath with hpath | hpath
      · obtain ⟨rest, hrest, rfl⟩ := List.mem_map.1 hpath
        obtain ⟨first, later, rfl⟩ := List.exists_cons_of_ne_nil (mem_paths_iff.1 hrest).1
        exact List.cons_lt_cons_iff.2 (.inr ⟨rfl, List.nil_lt_cons ..⟩)
      · exact hlater path hpath []
    · refine List.pairwise_map.2 ((ihBelow hbelow).imp fun hlt => ?_)
      exact List.cons_lt_cons_iff.2 (.inr ⟨rfl, hlt⟩)
    · exact ihSiblings hsiblings
    · intro path hpath other hother
      obtain ⟨rest, -, rfl⟩ := List.mem_map.1 hpath
      exact hlater other hother rest

end Forest

/-! ### Keys -/

/-- Something that can be asked for: a text, a truth value or a number. -/
def Json.isAtom : Json → Bool
  | .str _ | .bool _ | .int _ | .real _ => true
  | .null | .arr _ | .obj _ => false

theorem Json.isAtom_iff {value : Json} :
    value.isAtom ↔ ∃ key : Sql.Param, value = key.toJson := by
  constructor
  · intro h
    cases value with
    | str s => exact ⟨.text s, rfl⟩
    | bool b => exact ⟨.bool b, rfl⟩
    | int n => exact ⟨.int n, rfl⟩
    | real x => exact ⟨.real x, rfl⟩
    | null | arr _ | obj _ => cases h
  · intro h
    obtain ⟨key, rfl⟩ := h
    cases key <;> rfl

namespace EagerLoad

variable {κ : Type} {conn : Connection κ} {reg : Registry} {owner root target : Schema}
variable {name : String} {relation : Relation} {below siblings forest : Forest}
variable {rows fetched children loaded : List Json} {session s₁ s₂ final : Session κ}

/-- An edge of a graph when loading comes to it, with the rows of its owner as they are then. -/
structure Arrival where
  path : List String
  relation : Relation
  target : Schema
  batch : List Json

namespace Arrival

/-- The same, seen from the owner of a relation that leads there. -/
def through (name : String) (a : Arrival) : Arrival := { a with path := name :: a.path }

/-- Has a row of the batch a key that can be asked for? -/
def hasKey (a : Arrival) : Bool :=
  a.batch.any fun row => (row.get? a.relation.localKey).any Json.isAtom

/-- What is asked about the batch. -/
def question (a : Arrival) : Sql.Statement :=
  Sql.selectChildren a.target a.relation (distinctKeys a.batch a.relation.localKey).values

theorem hasKey_iff {a : Arrival} :
    a.hasKey ↔ ∃ key : Sql.Param, Found a.batch a.relation.localKey key.toJson := by
  rw [hasKey, List.any_eq_true]
  constructor
  · intro h
    obtain ⟨row, hrow, hatom⟩ := h
    cases hvalue : row.get? a.relation.localKey with
    | none => simp [hvalue] at hatom
    | some value =>
      rw [hvalue, Option.any_some] at hatom
      obtain ⟨key, rfl⟩ := Json.isAtom_iff.1 hatom
      exact ⟨key, row, hrow, hvalue⟩
  · intro h
    obtain ⟨key, row, hrow, hvalue⟩ := h
    exact ⟨row, hrow, by rw [hvalue]; exact Json.isAtom_iff.2 ⟨key, rfl⟩⟩

theorem values_eq_nil_iff {a : Arrival} :
    (distinctKeys a.batch a.relation.localKey).values = [] ↔ ¬ a.hasKey := by
  rw [hasKey_iff]
  exact EagerLoad.values_eq_nil_iff

end Arrival

/-- **Where a load comes.** Each edge with the batch of rows that it is loaded for: below an edge
the children that were returned, and beside it the rows with what has been attached. -/
def arrivals (reg : Registry) (conn : Connection κ) :
    Forest → Schema → List Json → Session κ → List Arrival
  | .nil, _, _, _ => []
  | .node name below siblings, owner, rows, session =>
    match relationTo reg owner name with
    | .error _ => []
    | .ok (relation, target) =>
      let (fetched, fetchedAt) := fetch conn owner name relation target rows session
      let (loaded, loadedAt) := load reg conn (.node name below .nil) owner rows session
      ⟨[name], relation, target, rows⟩ ::
        ((arrivals reg conn below target ((fetched.toOption.getD []).map (stripOwner relation))
            fetchedAt).map (·.through name) ++
          arrivals reg conn siblings owner (loaded.toOption.getD []) loadedAt)

/-! ### Following a load -/

/-- **Inversion.** What has been done when an edge and its siblings have been loaded. -/
theorem exists_of_load_node (hrelation : relationTo reg owner name = .ok (relation, target))
    (h : load reg conn (.node name below siblings) owner rows session = (.ok loaded, final)) :
    ∃ fetched children s₁ s₂,
      fetch conn owner name relation target rows session = (.ok fetched, s₁) ∧
      load reg conn below target (fetched.map (stripOwner relation)) s₁ = (.ok children, s₂) ∧
      load reg conn siblings owner (attachFound name relation fetched children rows) s₂ =
        (.ok loaded, final) := by
  by_cases hrows : rows = []
  · subst hrows
    rw [load_nil_rows] at h
    exact ⟨[], [], session, session, rfl, load_nil_rows _ _, (load_nil_rows _ _).trans h⟩
  · obtain ⟨_, _, fetched, children, s₁, s₂, hsame, hfetch, hbelow, -⟩ :=
      load_node_eq_ok hrows (congrArg Prod.fst h)
    obtain ⟨rfl, rfl⟩ := Prod.mk.inj (Except.ok.inj (hrelation.symm.trans hsame))
    rw [load_node_of_ok hrelation hfetch hbelow] at h
    exact ⟨fetched, children, s₁, s₂, hfetch, hbelow, h⟩

theorem arrivals_node_of_ok (hrelation : relationTo reg owner name = .ok (relation, target))
    (hfetch : fetch conn owner name relation target rows session = (.ok fetched, s₁))
    (hbelow : load reg conn below target (fetched.map (stripOwner relation)) s₁ =
      (.ok children, s₂)) (siblings : Forest) :
    arrivals reg conn (.node name below siblings) owner rows session =
      ⟨[name], relation, target, rows⟩ ::
        ((arrivals reg conn below target (fetched.map (stripOwner relation)) s₁).map
            (·.through name) ++
          arrivals reg conn siblings owner (attachFound name relation fetched children rows)
            s₂) := by
  have hhere : load reg conn (.node name below .nil) owner rows session =
      (.ok (attachFound name relation fetched children rows), s₂) :=
    load_node_of_ok hrelation hfetch hbelow .nil
  rw [arrivals, hrelation]
  simp only [hfetch, hhere]
  rfl

/-! ### What is asked -/

/-- The questions of the batches that have a key. -/
def questions (as : List Arrival) : List Sql.Statement :=
  (as.filter Arrival.hasKey).map Arrival.question

theorem questions_append (as bs : List Arrival) :
    questions (as ++ bs) = questions as ++ questions bs := by
  rw [questions, List.filter_append, List.map_append]
  rfl

/-- From which owner an edge is seen does not matter to what is asked. -/
theorem questions_map_through (name : String) (as : List Arrival) :
    questions (as.map (·.through name)) = questions as := by
  rw [questions, List.filter_map, List.map_map]
  rfl

theorem questions_singleton (a : Arrival) :
    questions [a] =
      if (distinctKeys a.batch a.relation.localKey).values = [] then [] else [a.question] := by
  unfold questions
  by_cases h : a.hasKey
  · rw [if_neg fun hnil => Arrival.values_eq_nil_iff.1 hnil h, List.filter_singleton, h]
    rfl
  · rw [if_pos (Arrival.values_eq_nil_iff.2 h), List.filter_singleton, Bool.eq_false_iff.2 h]
    rfl

/-- **What a load asks** are the questions of the batches that have a key, in the order in which it
comes to them. -/
theorem issued_load (hfits : forest.Fits reg owner)
    (h : load reg conn forest owner rows session = (.ok loaded, final)) :
    final.issued = session.issued ++ questions (arrivals reg conn forest owner rows session) := by
  induction forest generalizing owner rows session loaded final with
  | nil =>
    obtain rfl : session = final := congrArg Prod.snd h
    exact (List.append_nil _).symm
  | node name below siblings ihBelow ihSiblings =>
    obtain ⟨⟨relation, target, hrelation, htarget, hbelow⟩, hsiblings⟩ := hfits
    have hedge := relationTo_eq_ok hrelation htarget
    obtain ⟨fetched, children, s₁, s₂, hfetch, hchildren, hrest⟩ := exists_of_load_node hedge h
    have hasked := issued_fetch conn owner name relation target rows session
    rw [hfetch] at hasked
    rw [arrivals_node_of_ok hedge hfetch hchildren, ← List.singleton_append, questions_append,
      questions_append, questions_map_through, questions_singleton]
    calc final.issued
        = s₂.issued ++ questions (arrivals reg conn siblings owner
            (attachFound name relation fetched children rows) s₂) := ihSiblings hsiblings hrest
      _ = _ := by
        rw [ihBelow hbelow hchildren, hasked, List.append_assoc, List.append_assoc]
        rfl

/-! ### The edges that a load comes to -/

/-- Whatever the rows, a load comes to an edge, to the edges below it and to those beside it. -/
theorem exists_arrivals_node (conn : Connection κ)
    (hrelation : relationTo reg owner name = .ok (relation, target))
    (below siblings : Forest) (rows : List Json) (session : Session κ) :
    ∃ rowsBelow sBelow rowsBeside sBeside,
      arrivals reg conn (.node name below siblings) owner rows session =
        ⟨[name], relation, target, rows⟩ ::
          ((arrivals reg conn below target rowsBelow sBelow).map (·.through name) ++
            arrivals reg conn siblings owner rowsBeside sBeside) := by
  rw [arrivals, hrelation]
  exact ⟨_, _, _, _, rfl⟩

/-- **A load comes to every edge**, in the order of the edges. -/
theorem path_arrivals (conn : Connection κ) (hfits : forest.Fits reg owner) (rows : List Json)
    (session : Session κ) :
    (arrivals reg conn forest owner rows session).map (·.path) = forest.paths := by
  induction forest generalizing owner rows session with
  | nil => rfl
  | node name below siblings ihBelow ihSiblings =>
    obtain ⟨⟨relation, target, hrelation, htarget, hbelow⟩, hsiblings⟩ := hfits
    obtain ⟨rowsBelow, sBelow, rowsBeside, sBeside, harrivals⟩ :=
      exists_arrivals_node conn (relationTo_eq_ok hrelation htarget) below siblings rows session
    have hprefix : ((arrivals reg conn below target rowsBelow sBelow).map (·.through name)).map
        (·.path) = ((arrivals reg conn below target rowsBelow sBelow).map (·.path)).map
          (name :: ·) := by
      rw [List.map_map, List.map_map]
      rfl
    rw [harrivals, List.map_cons, List.map_append, hprefix, ihBelow hbelow, ihSiblings hsiblings,
      Forest.paths]

/-- The relation with which a load comes to an edge is that of the edge. -/
theorem edgeAt_of_mem_arrivals (hfits : forest.Fits reg owner) {a : Arrival}
    (ha : a ∈ arrivals reg conn forest owner rows session) :
    reg.EdgeAt owner a.path a.relation a.target := by
  induction forest generalizing owner rows session a with
  | nil => exact absurd ha List.not_mem_nil
  | node name below siblings ihBelow ihSiblings =>
    obtain ⟨⟨relation, target, hrelation, htarget, hbelow⟩, hsiblings⟩ := hfits
    obtain ⟨rowsBelow, sBelow, rowsBeside, sBeside, harrivals⟩ :=
      exists_arrivals_node conn (relationTo_eq_ok hrelation htarget) below siblings rows session
    rw [harrivals] at ha
    rcases List.mem_cons.1 ha with rfl | ha
    · exact .here hrelation htarget
    · rcases List.mem_append.1 ha with ha | ha
      · obtain ⟨b, hb, rfl⟩ := List.mem_map.1 ha
        exact .along hrelation htarget (ihBelow hbelow hb)
      · exact ihSiblings hsiblings ha

/-! ### One statement for an edge -/

/-- No statement that was issued was answered with a failure. -/
def AllAnswered (conn : Connection κ) (session : Session κ) {α : Type} (outcome : Outcome κ α) :
    Prop :=
  ∀ before statement after, outcome.2.issued = session.issued ++ (before ++ statement :: after) →
    ∃ rows, (conn.answer statement (conn.stateAfter session.state before)).1 = .ok rows

theorem exists_load_of_allAnswered (hfits : forest.Fits reg owner)
    (hanswered : AllAnswered conn session (load reg conn forest owner rows session)) :
    ∃ loaded final, load reg conn forest owner rows session = (.ok loaded, final) := by
  rcases hload : load reg conn forest owner rows session with ⟨outcome, final⟩
  cases outcome with
  | ok loaded => exact ⟨loaded, final, rfl⟩
  | error failure =>
    have hfails : Outcome.FailsByStatement conn session (load reg conn forest owner rows session) :=
      load_failsByStatement hfits rows session
    rw [hload] at hanswered hfails
    obtain ⟨before, statement, text, hissued, hfailed, -⟩ := hfails failure rfl
    obtain ⟨found, hfound⟩ := hanswered before statement [] hissued
    rw [hfound] at hfailed
    cases hfailed

/-- **One statement for an edge.** A load whose statements are answered comes to all edges of its
graph, each once and in the order of their chains, with a batch of rows. It asks one question about
every batch in which a row has a key, in this order, and nothing else. So it issues no more
statements than the graph has edges, however many rows there are. -/
theorem one_statement_per_edge (graph : FetchGraph) (hfits : graph.forest.Fits reg root)
    (hanswered : AllAnswered conn session (load reg conn graph.forest root rows session)) :
    ∃ loaded final, load reg conn graph.forest root rows session = (.ok loaded, final) ∧
      ∃ visits : List Arrival, visits = arrivals reg conn graph.forest root rows session ∧
        (∀ path, path ∈ visits.map (·.path) ↔ path ≠ [] ∧ graph.HasChain path) ∧
        (visits.map (·.path)).Pairwise (· < ·) ∧
        (∀ visit ∈ visits, reg.EdgeAt root visit.path visit.relation visit.target) ∧
        final.issued = session.issued ++ (visits.filter Arrival.hasKey).map Arrival.question ∧
        final.issued.length ≤ session.issued.length + graph.forest.paths.length := by
  obtain ⟨loaded, final, hload⟩ := exists_load_of_allAnswered hfits hanswered
  have hpaths := path_arrivals conn hfits rows session
  have hissued := issued_load hfits hload
  refine ⟨loaded, final, hload, _, rfl, ?_, ?_, fun visit => edgeAt_of_mem_arrivals hfits, hissued,
    ?_⟩
  · rw [hpaths]
    exact fun path => Forest.mem_paths_iff
  · rw [hpaths]
    exact graph.ordered.pairwise_paths
  · rw [hissued, ← hpaths, List.length_append, questions, List.length_map, List.length_map]
    exact Nat.add_le_add_left (List.length_filter_le ..) _

/-- Two members of a team, of whom one has no key, so that nobody asks for the roles of that one. -/
def teamMates : List Json :=
  [.obj [("id", .int 10), ("team_id", .int 1)], .obj [("id", .null), ("team_id", .int 1)]]

/-- No roles, and a team whose members cannot be asked for. -/
def keylessTeam : List ScriptLine := [.rows [], .rows [.obj [("id", .null)]]]

/-- Two statements for three edges: the roles and the team of both members, but not the members of
the team that came without a key. -/
theorem one_statement_per_edge_of_team_mates :
    clubGraph.forest.Fits club members ∧
      AllAnswered .scripted ⟨keylessTeam, []⟩
        (load club .scripted clubGraph.forest members teamMates ⟨keylessTeam, []⟩) ∧
      ∃ loaded final,
        load club .scripted clubGraph.forest members teamMates ⟨keylessTeam, []⟩ =
          (.ok loaded, final) ∧
        ∃ visits : List Arrival,
          visits.map (fun visit => (visit.path, visit.hasKey)) =
            [(["roles"], true), (["team"], true), (["team", "members"], false)] ∧
          final.issued = (visits.filter Arrival.hasKey).map Arrival.question ∧
          final.issued.length = 2 := by
  have hanswered : AllAnswered .scripted ⟨keylessTeam, []⟩
      (load club .scripted clubGraph.forest members teamMates ⟨keylessTeam, []⟩) := by
    intro before statement after hissued
    have hlength : 2 = (before ++ statement :: after).length := congrArg List.length hissued
    match before with
    | [] => exact ⟨_, rfl⟩
    | [_] => exact ⟨_, rfl⟩
    | _ :: _ :: _ =>
      simp only [List.cons_append, List.length_cons, List.length_append] at hlength
      omega
  obtain ⟨loaded, final, hload, visits, hvisits, -, -, -, hissued, -⟩ :=
    one_statement_per_edge clubGraph fits_clubGraph hanswered
  refine ⟨fits_clubGraph, hanswered, loaded, final, hload, visits, ?_, hissued, ?_⟩
  · rw [hvisits]
    rfl
  · rw [hissued, hvisits]
    rfl

end EagerLoad

end QuerySieve
