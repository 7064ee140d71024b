import QuerySieve.Proofs.EagerLoad.Batch

/-!
# QuerySieve.Proofs.EagerLoad.Siblings

**What siblings have to do with each other.**

Siblings are loaded one after the other, and each writes its name into the rows before the next one
reads its key from them. Nothing else passes between them:

* what is attached under a name depends on the key column of the rows only
  (`map_get?_attachFound_congr`), and whatever comes later leaves it alone (`map_get?_load`);
* so a relation loads next to others as it loads alone, as long as none of those before it has the
  name of its key column (`map_get?_load_congr`).

Where one has, the key is gone: an order whose wallet is found alone has none any more once the
user, called like the column of the key, is loaded first.
-/

namespace QuerySieve

theorem Forest.Ordered.lt_of_get? {name other : String} {children siblings : Forest}
    (h : (node name children siblings).Ordered) (hother : (siblings.get? other).isSome) :
    name < other := by
  induction siblings generalizing name children with
  | nil => cases hother
  | node next below rest _ ih =>
    obtain ⟨hnext, -, hsiblings⟩ := Forest.ordered_node.1 h
    have hlt : name < next := hnext next below rest rfl
    rw [Forest.get?] at hother
    by_cases hhere : next = other
    · exact hhere ▸ hlt
    · rw [if_neg hhere] at hother
      exact String.lt_trans hlt (ih hsiblings hother)

theorem Forest.Fits.of_get? {reg : Registry} {owner : Schema} {name : String}
    {forest below : Forest} (h : forest.Fits reg owner) (hget : forest.get? name = some below) :
    ∃ relation target, owner.relationAt? name = some relation ∧
      reg.entities.get? relation.target = some target ∧ below.Fits reg target := by
  induction forest with
  | nil => cases hget
  | node first children siblings _ ih =>
    rw [Forest.get?] at hget
    by_cases hfirst : first = name
    · rw [if_pos hfirst] at hget
      obtain rfl := Option.some.inj hget
      exact hfirst ▸ h.1
    · rw [if_neg hfirst] at hget
      exact ih h.2 hget

namespace EagerLoad

variable {κ : Type} {conn : Connection κ} {reg : Registry} {owner target : Schema} {name : String}
variable {relation : Relation} {found : Schema → Relation → List Sql.Param → List Json}

/-- What an edge sees of a row: whether something can be attached to it, and the key. -/
def keyView (column : String) (row : Json) : Bool × Option Json :=
  (row.isObject, row.get? column)

/-- A member that is not one of the names stays as it is, whatever the database. -/
theorem map_get?_load {forest : Forest} {column : String} {rows loaded : List Json}
    {session : Session κ} (hcolumn : forest.get? column = none)
    (h : (load reg conn forest owner rows session).1 = .ok loaded) :
    loaded.map (·.get? column) = rows.map (·.get? column) := by
  induction forest generalizing rows session with
  | nil => rw [Except.ok.inj h]
  | node name below siblings _ ih =>
    rw [Forest.get?] at hcolumn
    by_cases hname : name = column
    · rw [if_pos hname] at hcolumn
      cases hcolumn
    rw [if_neg hname] at hcolumn
    by_cases hrows : rows = []
    · rw [hrows, load_nil_rows] at h
      rw [hrows, ← Except.ok.inj h]
    · obtain ⟨relation, target, fetched, children, s₁, s₂, -, -, -, hsiblings⟩ :=
        load_node_eq_ok hrows h
      rw [ih hcolumn hsiblings, attachFound, attach, List.map_map]
      refine List.map_congr_left fun row _ => ?_
      exact Json.get?_set_of_ne _ row (Ne.symm hname)

/-- Attaching under another name changes nothing of what an edge sees. -/
theorem map_keyView_attachFound {column : String} (hname : column ≠ name)
    (fetched children rows : List Json) :
    (attachFound name relation fetched children rows).map (keyView column) =
      rows.map (keyView column) := by
  rw [attachFound, attach, List.map_map]
  refine List.map_congr_left fun row _ => ?_
  rw [Function.comp_apply, keyView, Json.isObject_set, Json.get?_set_of_ne _ row hname, keyView]

theorem foundFor_congr {rows others : List Json}
    (h : rows.map (keyView relation.localKey) = others.map (keyView relation.localKey)) :
    foundFor found target relation rows = foundFor found target relation others := by
  have hpairs : ∀ rows : List Json, rows.filterMap (keyPair? relation.localKey) =
      (rows.map (keyView relation.localKey)).filterMap fun view => do
        let value ← view.2
        return (← keyText? value, ← keyParam? value) := by
    intro rows
    rw [List.filterMap_map]
    rfl
  have hkeys : distinctKeys rows relation.localKey = distinctKeys others relation.localKey := by
    rw [distinctKeys, distinctKeys, hpairs, hpairs, h]
  rw [foundFor, foundFor, hkeys]

theorem map_get?_attachFound_congr {rows others : List Json} (fetched children : List Json)
    (h : rows.map (keyView relation.localKey) = others.map (keyView relation.localKey)) :
    (attachFound name relation fetched children rows).map (·.get? name) =
      (attachFound name relation fetched children others).map (·.get? name) := by
  have hview : ∀ rows : List Json,
      (attachFound name relation fetched children rows).map (·.get? name) =
        (rows.map (keyView relation.localKey)).map fun view =>
          if view.1 then some (attached relation.cardinality (childrenOf (view.2.bind keyText?)
            ((fetched.map (rowKey? (ownerColumn relation))).zip children))) else none := by
    intro rows
    rw [attachFound, attach, List.map_map, List.map_map]
    exact List.map_congr_left fun row _ => Json.get?_set_self name _ row
  rw [hview, hview, h]

theorem map_get?_load_node {below siblings : Forest} {rows loaded children : List Json}
    {session : Session κ} (hconn : conn.Steady found)
    (hrelation : owner.relationAt? name = some relation)
    (htarget : reg.entities.get? relation.target = some target)
    (hbelow : ∀ session, (load reg conn below target
      ((foundFor found target relation rows).map (stripOwner relation)) session).1 = .ok children)
    (hname : siblings.get? name = none)
    (h : (load reg conn (.node name below siblings) owner rows session).1 = .ok loaded) :
    loaded.map (·.get? name) =
      (attachFound name relation (foundFor found target relation rows) children rows).map
        (·.get? name) := by
  obtain ⟨after, hstep⟩ : ∃ after, load reg conn (.node name below siblings) owner rows session =
      load reg conn siblings owner _ after :=
    load_node_of_steady hconn hrelation htarget hbelow session
  rw [hstep] at h
  exact map_get?_load hname h

/-- Two batches that look alike to an edge get the same attached by it, in whatever company. -/
theorem map_get?_load_congr {forest below : Forest} {rows others loaded alone : List Json}
    {s s' : Session κ} (hconn : conn.Steady found) (hordered : forest.Ordered)
    (hfits : forest.Fits reg owner) (hget : forest.get? name = some below)
    (hrelation : owner.relationAt? name = some relation)
    (hkey : ∀ other, (forest.get? other).isSome → other < name → other ≠ relation.localKey)
    (hview : rows.map (keyView relation.localKey) = others.map (keyView relation.localKey))
    (hloaded : (load reg conn forest owner rows s).1 = .ok loaded)
    (halone : (load reg conn (.node name below .nil) owner others s').1 = .ok alone) :
    loaded.map (·.get? name) = alone.map (·.get? name) := by
  induction forest generalizing rows s with
  | nil => cases hget
  | node first children siblings _ ih =>
    obtain ⟨⟨own, target, hown, htarget, hchildren⟩, hsiblings⟩ := hfits
    have hlater : ∀ other, (siblings.get? other).isSome → first < other :=
      fun other => hordered.lt_of_get?
    by_cases hrows : rows = []
    · rw [hrows] at hview
      obtain rfl : others = [] := List.map_eq_nil_iff.1 hview.symm
      rw [hrows, load_nil_rows] at hloaded
      rw [load_nil_rows] at halone
      rw [← Except.ok.inj hloaded, ← Except.ok.inj halone]
    rw [Forest.get?] at hget
    by_cases hfirst : first = name
    · -- the edge itself: it finds the same for both batches and attaches it alike
      subst hfirst
      rw [if_pos rfl] at hget
      obtain rfl := Option.some.inj hget
      obtain rfl := Option.some.inj (hown.symm.trans hrelation)
      have hlast : siblings.get? first = none := by
        rw [← Option.not_isSome_iff_eq_none]
        exact fun hsome => String.lt_irrefl first (hlater first hsome)
      obtain ⟨fetched, hfetched⟩ := exists_load_of_steady hconn hchildren
        ((foundFor found target own rows).map (stripOwner own))
      rw [map_get?_load_node hconn hown htarget hfetched hlast hloaded]
      rw [foundFor_congr hview] at hfetched ⊢
      rw [map_get?_load_node hconn hown htarget hfetched rfl halone]
      exact map_get?_attachFound_congr _ _ hview
    · -- an edge before it: the rows look the same after as before
      rw [if_neg hfirst] at hget
      have hbefore : first < name := hlater name (by rw [hget]; rfl)
      have hlocal : first ≠ relation.localKey := hkey first (by simp [Forest.get?]) hbefore
      obtain ⟨own, -, fetched, loadedBelow, -, after, -, -, -, hrest⟩ :=
        load_node_eq_ok hrows hloaded
      refine ih (Forest.ordered_node.1 hordered).2.2 hsiblings hget ?_ ?_ hrest
      · intro other hother hlt
        refine hkey other ?_ hlt
        rw [Forest.get?]
        split
        · rfl
        · exact hother
      · rw [map_keyView_attachFound (Ne.symm hlocal), hview]

/-- **Beside its siblings a relation loads as it loads alone**, if none of those that are loaded
before it has the name of its key column. -/
theorem load_beside_siblings (hconn : conn.Steady found) (graph : FetchGraph)
    (hfits : graph.forest.Fits reg owner) {below : FetchGraph} (hget : graph.get? name = some below)
    (hrelation : owner.relationAt? name = some relation)
    (hkey : ∀ other, (graph.get? other).isSome → other < name → other ≠ relation.localKey)
    (rows : List Json) (s s' : Session κ) :
    ∃ loaded alone, (load reg conn graph.forest owner rows s).1 = .ok loaded ∧
      (load reg conn (FetchGraph.single name below).forest owner rows s').1 = .ok alone ∧
      loaded.map (·.get? name) = alone.map (·.get? name) := by
  have hforest : graph.forest.get? name = some below.forest := by
    rw [← graph.map_forest_get?, hget]
    rfl
  have hsome : ∀ other, (graph.forest.get? other).isSome = (graph.get? other).isSome := by
    intro other
    rw [← graph.map_forest_get?, Option.isSome_map]
  have hsingle : (FetchGraph.single name below).forest.Fits reg owner :=
    ⟨hfits.of_get? hforest, trivial⟩
  obtain ⟨loaded, hloaded⟩ := exists_load_of_steady hconn hfits rows
  obtain ⟨alone, halone⟩ := exists_load_of_steady hconn hsingle rows
  refine ⟨loaded, alone, hloaded s, halone s', ?_⟩
  refine map_get?_load_congr hconn graph.ordered hfits hforest hrelation ?_ rfl (hloaded s)
    (halone s')
  intro other hother
  exact hkey other (hsome other ▸ hother)

/-- The team of a member, next to the roles, which have another name than its key column. -/
theorem load_beside_siblings_of_members :
    (shelved clubShelf).Steady (served (stockOf clubShelf)) ∧
      clubGraph.forest.Fits club members ∧
      clubGraph.get? "team" = some (.single "members" .empty) ∧
      members.relationAt? "team" = some ⟨"team", .toOne, "team_id", "id", none⟩ ∧
      (∀ other, (clubGraph.get? other).isSome → other < "team" → other ≠ "team_id") ∧
      ∃ loaded alone,
        (load club (shelved clubShelf) clubGraph.forest members [ann, bob] ⟨(), []⟩).1 =
          .ok loaded ∧
        (load club (shelved clubShelf) (FetchGraph.single "team" (.single "members" .empty)).forest
          members [ann, bob] ⟨(), []⟩).1 = .ok alone ∧
        loaded.map (·.get? "team") = alone.map (·.get? "team") := by
  have hconn := (stocked_shelved isFlat_of_mem_clubShelf).steady
  have hfits := fits_clubGraph
  have hget : clubGraph.get? "team" = some (.single "members" .empty) := rfl
  have hrelation : members.relationAt? "team" = some ⟨"team", .toOne, "team_id", "id", none⟩ := rfl
  have hkey : ∀ other, (clubGraph.get? other).isSome → other < "team" → other ≠ "team_id" := by
    rintro other hother - rfl
    cases hother
  exact ⟨hconn, hfits, hget, hrelation, hkey,
    load_beside_siblings hconn clubGraph hfits hget hrelation hkey [ann, bob] ⟨(), []⟩ ⟨(), []⟩⟩

/-! ### A key that gets lost -/

/-- Orders, whose column `user` holds the key of the user and of the user's wallet. -/
def userOrders : Schema :=
  (Schema.new "order" "orders").toOne "user" "user" "user" "id"
    |>.toOne "wallet" "wallet" "user" "owner"

/-- A model of orders, users and wallets. -/
def payments : Registry :=
  .ofList [userOrders, Schema.new "user" "users", Schema.new "wallet" "wallets"]

/-- The user with the number 7, and the wallet of this user. -/
def walletShelf (question : Sql.Statement) : List Json :=
  if question.table = "users" then [.obj [("id", .int 7)]]
  else [.obj [("id", .int 5), ("owner", .int 7)]]

/-- The user and the wallet of an order. -/
def walletGraph : FetchGraph :=
  (FetchGraph.single "user" .empty).merge (.single "wallet" .empty)

/-- The order of the user with the number 7. -/
def order : Json := .obj [("id", .int 1), ("user", .int 7)]

/-- The wallet that is found alone is not found beside the user, which overwrites its key. -/
theorem wallet_is_lost :
    payments.validate = .ok () ∧ walletGraph.forest.Fits payments userOrders ∧
      walletGraph.get? "wallet" = some .empty ∧
      (shelved walletShelf).Steady (served (stockOf walletShelf)) ∧ order.IsFlat ∧
      ∃ loaded alone,
        (load payments (shelved walletShelf) walletGraph.forest userOrders [order] ⟨(), []⟩).1 =
          .ok loaded ∧
        (load payments (shelved walletShelf) (FetchGraph.single "wallet" .empty).forest userOrders
          [order] ⟨(), []⟩).1 = .ok alone ∧
        loaded.map (·.get? "wallet") = [some .null] ∧
        alone.map (·.get? "wallet") = [some (.obj [("id", .int 5), ("owner", .int 7)])] ∧
        loaded.map (·.get? "wallet") ≠ alone.map (·.get? "wallet") := by
  have hflat : ∀ question, ∀ child ∈ walletShelf question, child.IsFlat := by
    intro question
    unfold walletShelf
    split <;> decide
  refine ⟨rfl, ⟨⟨_, _, rfl, rfl, trivial⟩, ⟨_, _, rfl, rfl, trivial⟩, trivial⟩, rfl,
    (stocked_shelved hflat).steady, by decide, _, _, rfl, rfl, rfl, rfl, ?_⟩
  intro h
  cases Option.some.inj (List.cons.inj h).1

end EagerLoad

end QuerySieve
