import QuerySieve.EagerLoad
import QuerySieve.Proofs.Resolution

/-!
# QuerySieve.Proofs.EagerLoad.Edge

**One edge of a graph.** To load it and its siblings is to load the siblings for rows that have got
the edge's children (`load_node_of_ok`, and `load_node_eq_ok` the other way round). Facts about
whole graphs are inductions over the forest that use this step once per edge.

For a database that gives the same rows whenever it is asked the same (`Connection.Steady`) sessions
drop out of it: what an edge fetches is the list `foundFor` (`load_node_of_steady`).
-/

namespace QuerySieve

/-- The relation that an entity has under a name. -/
def Schema.relationAt? (s : Schema) (name : String) : Option Relation :=
  (s.field? name).bind Field.relation?

/-- Every name of the forest is a relation of the entity reached and leads to an entity of the
model. -/
def Forest.Fits (reg : Registry) : Forest → Schema → Prop
  | nil, _ => True
  | node name below siblings, owner =>
    (∃ relation target, owner.relationAt? name = some relation ∧
      reg.entities.get? relation.target = some target ∧ below.Fits reg target) ∧
    siblings.Fits reg owner

namespace Json

/-- Is this an object? Nothing can be attached to anything else. -/
def isObject : Json → Bool
  | obj _ => true
  | _ => false

theorem get?_set_of_ne {key other : String} (value : Json) (row : Json) (h : other ≠ key) :
    (row.set key value).get? other = row.get? other := by
  cases row with
  | obj members => rw [get?_set_obj, if_neg h]
  | _ => rfl

theorem get?_set_self (key : String) (value row : Json) :
    (row.set key value).get? key = if row.isObject then some value else none := by
  cases row with
  | obj members => rw [get?_set_obj, if_pos rfl]; rfl
  | _ => rfl

@[simp] theorem isObject_set (key : String) (value row : Json) :
    (row.set key value).isObject = row.isObject := by
  cases row <;> rfl

end Json

/-- The database gives rows for every question about children, and what it gives depends on the
question only. -/
def Connection.Steady {κ : Type} (conn : Connection κ)
    (found : Schema → Relation → List Sql.Param → List Json) : Prop :=
  ∀ target relation keys state,
    (conn.answer (Sql.selectChildren target relation keys) state).1 =
      .ok (found target relation keys)

theorem Outcome.exists_of_fst {κ α : Type} {outcome : Outcome κ α}
    {result : Except StorageFailure α} (h : outcome.1 = result) :
    ∃ after, outcome = (result, after) :=
  ⟨outcome.2, Prod.ext h rfl⟩

namespace EagerLoad

variable {κ : Type} {conn : Connection κ} {reg : Registry} {owner target : Schema} {name : String}
variable {relation : Relation} {rows fetched children : List Json} {below siblings : Forest}
variable {session s₁ s₂ : Session κ}
variable {found : Schema → Relation → List Sql.Param → List Json}

theorem relationTo_eq_ok (hrelation : owner.relationAt? name = some relation)
    (htarget : reg.entities.get? relation.target = some target) :
    relationTo reg owner name = .ok (relation, target) := by
  obtain ⟨field, hfield, hrelation⟩ := Option.bind_eq_some_iff.1 hrelation
  rw [relationTo, hfield]
  simp only [hrelation, Registry.schema_eq_ok_iff.2 htarget]

/-- The children of a batch of rows, as a steady database has them. -/
def foundFor (found : Schema → Relation → List Sql.Param → List Json) (target : Schema)
    (relation : Relation) (rows : List Json) : List Json :=
  match (distinctKeys rows relation.localKey).values with
  | [] => []
  | keys => found target relation keys

theorem fetch_of_steady (hconn : conn.Steady found) (owner : Schema) (name : String)
    (session : Session κ) :
    (fetch conn owner name relation target rows session).1 =
      .ok (foundFor found target relation rows) := by
  unfold fetch foundFor
  cases (distinctKeys rows relation.localKey).values with
  | nil => rfl
  | cons key keys =>
    have hanswer := hconn target relation (key :: keys) session.state
    simp only [Connection.query]
    rw [hanswer]

@[simp] theorem load_nil_rows (forest : Forest) (session : Session κ) :
    load reg conn forest owner [] session = (.ok [], session) := by
  cases forest <;> rfl

/-- The rows with the children of one edge, each child with its owner's key before it was
stripped and with what has been loaded for it. -/
def attachFound (name : String) (relation : Relation) (fetched loaded rows : List Json) :
    List Json :=
  attach name relation ((fetched.map (rowKey? (ownerColumn relation))).zip loaded) rows

/-- **Step.** An edge fetches its children, loads what is below them and attaches them; then the
siblings are loaded for the rows as they are now. That a load stops early without rows makes no
difference. -/
theorem load_node_of_ok (hrelation : relationTo reg owner name = .ok (relation, target))
    (hfetch : fetch conn owner name relation target rows session = (.ok fetched, s₁))
    (hbelow : load reg conn below target (fetched.map (stripOwner relation)) s₁ =
      (.ok children, s₂)) (siblings : Forest) :
    load reg conn (.node name below siblings) owner rows session =
      load reg conn siblings owner (attachFound name relation fetched children rows) s₂ := by
  by_cases hrows : rows = []
  · subst hrows
    obtain ⟨hnone, rfl⟩ : Except.ok [] = Except.ok fetched ∧ session = s₁ := Prod.mk.inj hfetch
    obtain rfl := Except.ok.inj hnone
    rw [List.map_nil, load_nil_rows] at hbelow
    obtain rfl : session = s₂ := congrArg Prod.snd hbelow
    exact (load_nil_rows _ _).trans (load_nil_rows siblings session).symm
  · rw [load, if_neg (by simpa using hrows), hrelation]
    simp only [hfetch, hbelow]
    rfl

/-- The step in a steady database. -/
theorem load_node_of_steady {loaded : List Json} (hconn : conn.Steady found)
    (hrelation : owner.relationAt? name = some relation)
    (htarget : reg.entities.get? relation.target = some target)
    (hbelow : ∀ session, (load reg conn below target
      ((foundFor found target relation rows).map (stripOwner relation)) session).1 = .ok loaded)
    (session : Session κ) :
    ∃ after, load reg conn (.node name below siblings) owner rows session =
      load reg conn siblings owner
        (attachFound name relation (foundFor found target relation rows) loaded rows) after := by
  obtain ⟨fetchedAt, hfetch⟩ : ∃ fetchedAt, fetch conn owner name relation target rows session =
      (.ok (foundFor found target relation rows), fetchedAt) :=
    Outcome.exists_of_fst (fetch_of_steady hconn owner name session)
  obtain ⟨after, hloaded⟩ : ∃ after, load reg conn below target
      ((foundFor found target relation rows).map (stripOwner relation)) fetchedAt =
        (.ok loaded, after) := Outcome.exists_of_fst (hbelow fetchedAt)
  exact ⟨after, load_node_of_ok (relationTo_eq_ok hrelation htarget) hfetch hloaded siblings⟩

/-- **Inversion.** What has been done when an edge and its siblings are loaded, in any database. -/
theorem load_node_eq_ok {session : Session κ} {loaded : List Json} (hrows : rows ≠ [])
    (h : (load reg conn (.node name below siblings) owner rows session).1 = .ok loaded) :
    ∃ relation target fetched children s₁ s₂,
      relationTo reg owner name = .ok (relation, target) ∧
      fetch conn owner name relation target rows session = (.ok fetched, s₁) ∧
      load reg conn below target (fetched.map (stripOwner relation)) s₁ = (.ok children, s₂) ∧
      (load reg conn siblings owner (attachFound name relation fetched children rows) s₂).1 =
        .ok loaded := by
  rw [load, if_neg (by simpa using hrows)] at h
  cases hrelation : relationTo reg owner name with
  | error cause => simp [hrelation] at h
  | ok found =>
    obtain ⟨relation, target⟩ := found
    simp only [hrelation] at h
    rcases hfetch : fetch conn owner name relation target rows session with ⟨outcome, s₁⟩
    cases outcome with
    | error failure => simp [hfetch] at h
    | ok fetched =>
      simp only [hfetch] at h
      rcases hbelow : load reg conn below target (fetched.map (stripOwner relation)) s₁ with
        ⟨outcome, s₂⟩
      cases outcome with
      | error failure => simp [hbelow] at h
      | ok children =>
        simp only [hbelow] at h
        exact ⟨relation, target, fetched, children, s₁, s₂, rfl, hfetch, hbelow, h⟩

/-- A graph that fits the model is loaded, in any session with the same result. -/
theorem exists_load_of_steady (hconn : conn.Steady found) {forest : Forest}
    (hfits : forest.Fits reg owner) (rows : List Json) :
    ∃ loaded, ∀ session, (load reg conn forest owner rows session).1 = .ok loaded := by
  induction forest generalizing owner rows with
  | nil => exact ⟨rows, fun _ => rfl⟩
  | node name below siblings ihBelow ihSiblings =>
    obtain ⟨⟨relation, target, hrelation, htarget, hbelow⟩, hsiblings⟩ := hfits
    obtain ⟨children, hchildren⟩ := ihBelow hbelow
      ((foundFor found target relation rows).map (stripOwner relation))
    obtain ⟨loaded, hloaded⟩ := ihSiblings hsiblings
      (attachFound name relation (foundFor found target relation rows) children rows)
    refine ⟨loaded, fun session => ?_⟩
    obtain ⟨after, hstep⟩ : ∃ after,
        load reg conn (.node name below siblings) owner rows session =
          load reg conn siblings owner _ after :=
      load_node_of_steady hconn hrelation htarget hchildren session
    rw [hstep, hloaded]

end EagerLoad

end QuerySieve
