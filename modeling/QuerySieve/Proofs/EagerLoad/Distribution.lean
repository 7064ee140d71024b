import Mathlib.Data.List.Forall2
import QuerySieve.Proofs.EagerLoad.Batch
import QuerySieve.Proofs.Session

/-!
# QuerySieve.Proofs.EagerLoad.Distribution

**One edge hands the children to their owners and touches nothing else.**

The owners' keys are read off the children before they are stripped, and the children are handed
out after what is below them has been loaded. With nothing below, that is a filter for each row
(`childrenOf_map_stripOwner`): a row gets the children that belong to it (`Belongs`), in the order
in which they were returned. Whatever the database, it matters only what it returns for this one
question (`Finds`).
-/

namespace QuerySieve

namespace Json

/-- Setting a member touches that member only. -/
theorem erase_set (key : String) (value row : Json) :
    (row.set key value).erase key = row.erase key := by
  cases row with
  | obj members => exact congrArg obj (Entries.erase_insert key value members)
  | _ => rfl

theorem get?_erase (key other : String) (row : Json) :
    (row.erase key).get? other = if other = key then none else row.get? other := by
  cases row with
  | obj members => exact Entries.get?_erase key other members
  | _ => simp [erase, get?]

@[simp] theorem isObject_erase (key : String) (row : Json) :
    (row.erase key).isObject = row.isObject := by
  cases row <;> rfl

end Json

namespace EagerLoad

variable {κ : Type} {conn : Connection κ} {reg : Registry} {owner target : Schema} {name : String}
variable {relation : Relation} {rows children : List Json} {session : Session κ}

/-- The child belongs to the row: both have a key, and the keys have the same text. -/
def Belongs (relation : Relation) (row child : Json) : Prop :=
  (rowKey? relation.localKey row).isSome ∧
    rowKey? (ownerColumn relation) child = rowKey? relation.localKey row

instance (relation : Relation) (row child : Json) : Decidable (Belongs relation row child) :=
  inferInstanceAs (Decidable (_ ∧ _))

/-- Of the children that were returned those that belong to a row, without the keys that were added
for their owners. -/
def belongings (relation : Relation) (children : List Json) (row : Json) : List Json :=
  (children.filter fun child => Belongs relation row child).map (stripOwner relation)

/-- These children are returned for a batch of rows: by the statement that asks for them, or none if
there is no key to ask for. -/
def Finds (conn : Connection κ) (target : Schema) (relation : Relation) (rows : List Json)
    (state : κ) (children : List Json) : Prop :=
  match (distinctKeys rows relation.localKey).values with
  | [] => children = []
  | keys => (conn.answer (Sql.selectChildren target relation keys) state).1 = .ok children

/-! ### Keys -/

theorem rowKey?_eq_none {column : String} {row : Json}
    (h : row.get? column = none ∨ row.get? column = some .null) : rowKey? column row = none := by
  unfold rowKey?
  cases h with
  | inl hmissing => rw [hmissing]; rfl
  | inr hnull => rw [hnull]; rfl

/-- A row without a key owns nothing. -/
theorem belongings_of_no_key {row : Json} (h : rowKey? relation.localKey row = none) :
    belongings relation children row = [] := by
  refine List.map_eq_nil_iff.2 (List.filter_eq_nil_iff.2 fun child _ => ?_)
  simp [Belongs, h]

/-- A child without an owner's key belongs to no row. -/
theorem not_belongs_of_no_key {child : Json} (h : rowKey? (ownerColumn relation) child = none)
    (row : Json) : ¬ Belongs relation row child := by
  intro hbelongs
  obtain ⟨hsome, hsame⟩ := hbelongs
  rw [← hsame, h] at hsome
  cases hsome

/-- **What a row is handed** are its belongings. -/
theorem childrenOf_map_stripOwner (children : List Json) (row : Json) :
    childrenOf (rowKey? relation.localKey row)
        ((children.map (rowKey? (ownerColumn relation))).zip (children.map (stripOwner relation))) =
      belongings relation children row := by
  cases hkey : rowKey? relation.localKey row with
  | none => rw [belongings_of_no_key hkey]; rfl
  | some key =>
    rw [childrenOf_zip, belongings]
    simp [Belongs, hkey]

/-! ### The edge -/

theorem fetch_of_finds (owner : Schema) (name : String)
    (h : Finds conn target relation rows session.state children) :
    ∃ final, fetch conn owner name relation target rows session = (.ok children, final) := by
  unfold Finds at h
  unfold fetch
  cases hkeys : (distinctKeys rows relation.localKey).values with
  | nil =>
    rw [hkeys] at h
    exact ⟨session, by rw [show children = [] from h]⟩
  | cons key keys =>
    rw [hkeys] at h
    exact ⟨_, Connection.query_of_answer _ h⟩

/-- An edge with nothing below it attaches the belongings of the rows. -/
theorem load_single (name : String) (hrelation : owner.relationAt? name = some relation)
    (htarget : reg.entities.get? relation.target = some target)
    (hfinds : Finds conn target relation rows session.state children) :
    ∃ final, load reg conn (FetchGraph.single name .empty).forest owner rows session =
      (.ok (rows.map fun row => row.set name
        (attached relation.cardinality (belongings relation children row))), final) := by
  obtain ⟨final, hfetch⟩ := fetch_of_finds owner name hfinds
  refine ⟨final, (load_node_of_ok (relationTo_eq_ok hrelation htarget) hfetch rfl .nil).trans ?_⟩
  simp only [load, attachFound, attach, childrenOf_map_stripOwner]

/-- What the handed children are: without a link table the children as they were returned, and
otherwise the same without the key of their owner. -/
theorem stripOwner_of_none (hvia : relation.via = none) (child : Json) :
    stripOwner relation child = child := by
  rw [stripOwner, hvia]
  rfl

theorem get?_stripOwner_of_isSome (hvia : relation.via.isSome) (child : Json) (column : String) :
    (stripOwner relation child).get? column =
      if column = Sql.ownerKeyColumn then none else child.get? column := by
  rw [stripOwner, if_pos hvia, Json.get?_erase]

/-- **One edge hands the children to their owners and touches nothing else.** Whatever is returned
for the rows, each of them keeps its place and all its members but the relation's, and gets the
children that belong to it in the order in which they were returned, or the first of them or
null. -/
theorem edge_distributes_children (hrelation : owner.relationAt? name = some relation)
    (htarget : reg.entities.get? relation.target = some target)
    (hrows : ∀ row ∈ rows, row.isObject) (hchildren : ∀ child ∈ children, child.isObject)
    (hfinds : Finds conn target relation rows session.state children) :
    (∃ loaded final,
      load reg conn (FetchGraph.single name .empty).forest owner rows session =
        (.ok loaded, final) ∧
      List.Forall₂ (fun row after => after.isObject ∧ after.erase name = row.erase name ∧
        after.get? name = some (match relation.cardinality with
          | .toMany => .arr (belongings relation children row)
          | .toOne => (belongings relation children row).head?.getD .null)) rows loaded) ∧
    (∀ row, row.get? relation.localKey = none ∨ row.get? relation.localKey = some .null →
      belongings relation children row = []) ∧
    (∀ child, child.get? (ownerColumn relation) = none ∨
        child.get? (ownerColumn relation) = some .null →
      ∀ row, ¬ Belongs relation row child) ∧
    (relation.via = none → ownerColumn relation = relation.foreignKey ∧
      ∀ child, stripOwner relation child = child) ∧
    (relation.via.isSome → ownerColumn relation = "__owner_key" ∧
      ∀ child ∈ children, (stripOwner relation child).isObject ∧
        (stripOwner relation child).get? "__owner_key" = none ∧
        ∀ other, other ≠ "__owner_key" →
          (stripOwner relation child).get? other = child.get? other) := by
  refine ⟨?_, fun row hkey => belongings_of_no_key (rowKey?_eq_none hkey),
    fun child hkey => not_belongs_of_no_key (rowKey?_eq_none hkey), ?_, ?_⟩
  · obtain ⟨final, hload⟩ := load_single name hrelation htarget hfinds
    refine ⟨_, final, hload, ?_⟩
    rw [List.forall₂_map_right_iff]
    refine List.forall₂_same.2 fun row hrow => ⟨?_, Json.erase_set name _ row, ?_⟩
    · rw [Json.isObject_set]
      exact hrows row hrow
    · rw [Json.get?_set_self, if_pos (hrows row hrow)]
      cases relation.cardinality <;> rfl
  · intro hvia
    exact ⟨by rw [ownerColumn, hvia]; rfl, stripOwner_of_none hvia⟩
  · intro hvia
    refine ⟨if_pos hvia, fun child hchild => ⟨?_, ?_, fun other hother => ?_⟩⟩
    · rw [stripOwner, if_pos hvia, Json.isObject_erase]
      exact hchildren child hchild
    · exact (get?_stripOwner_of_isSome hvia child _).trans (if_pos rfl)
    · exact (get?_stripOwner_of_isSome hvia child other).trans (if_neg hother)

/-! ### Roles of members without a key -/

/-- The roles of a member, through a link table. -/
def throughRoles : Relation :=
  ⟨"role", .toMany, "id", "id", some ⟨"member_roles", "member_id", "role_id"⟩⟩

/-- A member, one with the same key as a text, one whose key is null, and one without a key. -/
def fourMembers : List Json :=
  [.obj [("id", .int 10)], .obj [("id", .str "10")], .obj [("id", .null)],
    .obj [("name", .str "eve")]]

/-- Two roles of the members with a key, and two of nobody. -/
def fourRoles : List Json :=
  [.obj [("__owner_key", .int 10), ("id", .int 5)], .obj [("__owner_key", .null), ("id", .int 6)],
    .obj [("id", .int 7)], .obj [("__owner_key", .str "10"), ("id", .int 8)]]

/-- The members whose keys have one text get both roles, in the order in which they were returned
and without the keys; the others get none. -/
theorem edge_distributes_children_of_roles :
    members.relationAt? "roles" = some throughRoles ∧
      club.entities.get? throughRoles.target = some (Schema.new "role" "roles") ∧
      (∀ row ∈ fourMembers, row.isObject) ∧ (∀ child ∈ fourRoles, child.isObject) ∧
      Finds .scripted (Schema.new "role" "roles") throughRoles fourMembers
        [ScriptLine.rows fourRoles] fourRoles ∧
      (∃ loaded final,
        load club .scripted (FetchGraph.single "roles" .empty).forest members fourMembers
          ⟨[ScriptLine.rows fourRoles], []⟩ = (.ok loaded, final) ∧
        List.Forall₂ (fun row after => after.isObject ∧ after.erase "roles" = row.erase "roles" ∧
          after.get? "roles" = some (.arr (belongings throughRoles fourRoles row)))
            fourMembers loaded) ∧
      fourMembers.map (belongings throughRoles fourRoles) =
        [[.obj [("id", .int 5)], .obj [("id", .int 8)]],
          [.obj [("id", .int 5)], .obj [("id", .int 8)]], [], []] := by
  have hrelation : members.relationAt? "roles" = some throughRoles := rfl
  have htarget : club.entities.get? throughRoles.target = some (Schema.new "role" "roles") := rfl
  have hrows : ∀ row ∈ fourMembers, row.isObject := by decide
  have hchildren : ∀ child ∈ fourRoles, child.isObject := by decide
  let session : Session (List ScriptLine) := ⟨[ScriptLine.rows fourRoles], []⟩
  have hfinds : Finds .scripted (Schema.new "role" "roles") throughRoles fourMembers session.state
      fourRoles := rfl
  obtain ⟨hhanded, -⟩ := edge_distributes_children hrelation htarget hrows hchildren hfinds
  exact ⟨hrelation, htarget, hrows, hchildren, hfinds, hhanded, rfl⟩

end EagerLoad

end QuerySieve
