import Mathlib.Data.Set.List
import QuerySieve.Proofs.EagerLoad.Batch
import QuerySieve.Proofs.Sql.Children
import QuerySieve.Proofs.Validation

/-!
# QuerySieve.Proofs.EagerLoad.Agreement

**Filtering through a relation and embedding it mean the same relation.**

A filter follows a relation with the joins of its statement. The loader asks for the children of a
whole batch by the keys of its rows and hands them out by the texts of their keys. Both are compared
on a database that answers by the textbook meaning (`Store.connection`) and whose keys are integers
or null (`Store.Suits`). On such keys `=`, `IN` and the equality of texts are one relation, so what
the loader hands to an owner are the rows of `Store.children`; and those are the rows that the joins
lead to.
-/

namespace QuerySieve

/-- A key: null, or a signed 64-bit integer. -/
def Json.IsKey : Json → Prop
  | null => True
  | int n => Text.int64Min ≤ n ∧ n ≤ Text.int64Max
  | _ => False

instance : (value : Json) → Decidable value.IsKey
  | .null => .isTrue trivial
  | .int n => inferInstanceAs (Decidable (Text.int64Min ≤ n ∧ n ≤ Text.int64Max))
  | .bool _ | .real _ | .str _ | .arr _ | .obj _ => .isFalse id

namespace Sql

variable {V : Type}

/-- What a driver shows of a cell. -/
def shown (json : V → Json) (cell : Option V) : Json := (cell.map json).getD .null

/-- The cells of a row, as a driver returns them. -/
def record (json : V → Json) (cells : List (String × V)) : Json :=
  .object (cells.map fun cell => (cell.1, json cell.2))

/-- A row, as a driver returns it. -/
def shownRow (json : V → Json) (row : Row V) : Json := record json row.entries

/-- A database that answers by the textbook meaning, with a driver that shows its values. -/
def Store.connection [LinearOrder V] (db : Store V) (json : V → Json) : Connection Unit where
  answer statement state :=
    match db.answer statement with
    | .rows rows => (.ok (rows.map (record json)), state)
    | .number name n => (.ok [.obj [(name, .int n)]], state)

/-- What the two readings of a relation rely on: the keys that are compared are keys, on keys the
tests are those of integers, children have primary keys of their own, and none has a column of the
name that the loader uses. -/
structure Store.Suits (db : Store V) (json : V → Json) (owner target : Schema)
    (relation : Relation) : Prop where
  locals : ∀ row ∈ db.rows owner.table, (shown json (row.get? relation.localKey)).IsKey
  owners : ∀ cell ∈ db.ownerCells target relation, (shown json cell).IsKey
  equal : ∀ a b, (shown json a).IsKey → (shown json b).IsKey →
    (db.equal a b ↔ ∃ n, shown json a = .int n ∧ shown json b = .int n)
  isIn : ∀ a (ns : List Int), (shown json a).IsKey →
    (db.passes a (.isIn (ns.map .int)) ↔ ∃ n ∈ ns, shown json a = .int n)
  unique : ((db.rows target.table).map (·.get? target.primaryKey)).Nodup
  unowned : ∀ row ∈ db.rows target.table, row.get? ownerKeyColumn = none

/-! ### Rows as records -/

theorem shownRow_eq (json : V → Json) (row : Row V) :
    shownRow json row = .obj (row.entries.map fun cell => (cell.1, json cell.2)) :=
  congrArg Json.obj (Entries.ofList_of_ascending (Entries.ascending_map row.ascending))

theorem get?_shownRow (json : V → Json) (row : Row V) (column : String) :
    (shownRow json row).get? column = (row.get? column).map json := by
  rw [shownRow_eq]
  exact Entries.get?_map json column row.entries

theorem rowKey?_shownRow (json : V → Json) (row : Row V) (column : String) :
    EagerLoad.rowKey? column (shownRow json row) =
      EagerLoad.keyText? (shown json (row.get? column)) := by
  rw [EagerLoad.rowKey?, get?_shownRow, shown]
  cases row.get? column <;> rfl

/-! ### Records of children -/

variable {db : Store V} {json : V → Json} {owner target : Schema} {relation : Relation}
variable {ns : List Int}

/-- What a driver returns for a tuple that was found for a child. -/
def childRecord (json : V → Json) (target : Schema) (relation : Relation) (t : Tuple V) : Json :=
  record json ((selectChildren target relation []).projections.flatMap (·.cells t))

/-- A child without a link table is its row. -/
theorem childRecord_of_none (hvia : relation.via = none) (t : Tuple V) :
    childRecord json target relation t = shownRow json (t.rowD target.table) := by
  unfold childRecord selectChildren shownRow
  simp only [hvia, List.flatMap_cons, List.flatMap_nil, List.append_nil, Projection.cells_all]

namespace Store.Suits

variable (hdb : db.Suits json owner target relation)
  (hlink : ∀ via ∈ relation.via, via.table ≠ target.table)

include hdb hlink

theorem owned_isKey {t : Tuple V}
    (ht : t ∈ db.tuples (selectChildren target relation (ns.map .int))) :
    (shown json (t.cell (ownedBy target relation))).IsKey :=
  hdb.owners _ (Store.of_mem_tuples_selectChildren hlink ht).2.1

/-- A tuple of children carries an integer that is asked for. -/
theorem exists_owned {t : Tuple V}
    (ht : t ∈ db.tuples (selectChildren target relation (ns.map .int))) :
    ∃ n ∈ ns, shown json (t.cell (ownedBy target relation)) = .int n :=
  (hdb.isIn _ ns (hdb.owned_isKey hlink ht)).1 (Store.of_mem_tuples_selectChildren hlink ht).2.2

/-- A child through a link table is its row with the owner's key set. -/
theorem childRecord_of_some {t : Tuple V}
    (ht : t ∈ db.tuples (selectChildren target relation (ns.map .int))) {via : LinkTable}
    (hvia : relation.via = some via) :
    childRecord json target relation t =
      .obj (Entries.insert ownerKeyColumn (shown json (t.cell (ownedBy target relation)))
        ((t.rowD target.table).entries.map fun cell => (cell.1, json cell.2))) := by
  have hentries := Json.obj.inj (shownRow_eq json (t.rowD target.table))
  obtain ⟨n, -, hn⟩ := hdb.exists_owned hlink ht
  simp only [ownedBy, hvia] at hn ⊢
  cases hcell : t.cell ⟨via.table, via.sourceKey⟩ with
  | none => simp [hcell, shown] at hn
  | some value =>
    unfold childRecord selectChildren record
    simp only [hvia, List.flatMap_cons, List.flatMap_nil, List.append_nil, Projection.cells_all]
    rw [Projection.cells, hcell, List.map_append, Json.object, Entries.ofList, List.foldl_append]
    exact congrArg (fun entries => Json.obj (Entries.insert _ _ entries)) hentries

/-- The loader reads the owner's key of a child where the statement has put it. -/
theorem rowKey?_childRecord {t : Tuple V}
    (ht : t ∈ db.tuples (selectChildren target relation (ns.map .int))) :
    EagerLoad.rowKey? (EagerLoad.ownerColumn relation) (childRecord json target relation t) =
      EagerLoad.keyText? (shown json (t.cell (ownedBy target relation))) := by
  cases hvia : relation.via with
  | none =>
    rw [childRecord_of_none hvia, rowKey?_shownRow]
    simp only [EagerLoad.ownerColumn, ownedBy, hvia, Tuple.cell_eq_rowD]
    rfl
  | some via =>
    rw [hdb.childRecord_of_some hlink ht hvia, EagerLoad.ownerColumn, if_pos (by simp [hvia]),
      EagerLoad.rowKey?, Json.get?, Entries.get?_insert_self, Option.bind_some]

/-- Without the key of its owner a child is its row. -/
theorem stripOwner_childRecord {t : Tuple V}
    (ht : t ∈ db.tuples (selectChildren target relation (ns.map .int))) :
    EagerLoad.stripOwner relation (childRecord json target relation t) =
      shownRow json (t.rowD target.table) := by
  cases hvia : relation.via with
  | none => rw [EagerLoad.stripOwner, if_neg (by simp [hvia]), childRecord_of_none hvia]
  | some via =>
    have hascending := Entries.ascending_map (f := json) (t.rowD target.table).ascending
    have hunowned : Entries.get? ownerKeyColumn
        ((t.rowD target.table).entries.map fun cell => (cell.1, json cell.2)) = none := by
      rw [Entries.get?_map]
      exact congrArg (Option.map json)
        (hdb.unowned _ (Store.of_mem_tuples_selectChildren hlink ht).1)
    rw [EagerLoad.stripOwner, if_pos (by simp [hvia]), hdb.childRecord_of_some hlink ht hvia,
      Json.erase, Entries.erase_insert, Entries.erase_of_get?_eq_none hascending hunowned,
      shownRow_eq]

end Store.Suits

end Sql

/-! ### Keys as texts -/

theorem toString_inj_of_isKey {m n : Int} (hm : (Json.int m).IsKey) (hn : (Json.int n).IsKey)
    (h : toString m = toString n) : m = n :=
  Option.some.inj ((Text.int64?_toString hm).symm.trans (h ▸ Text.int64?_toString hn))

namespace EagerLoad

/-- Keys with one text are one integer. -/
theorem keyText?_eq_iff {a b : Json} (ha : a.IsKey) (hb : b.IsKey) {text : String}
    (htext : keyText? a = some text) :
    keyText? b = some text ↔ ∃ n, a = .int n ∧ b = .int n := by
  cases a with
  | null => cases htext
  | int m =>
    cases b with
    | null => simp [keyText?]
    | int n =>
      have hm : toString m = text := Option.some.inj htext
      constructor
      · intro h
        have hn : toString n = text := Option.some.inj h
        obtain rfl := toString_inj_of_isKey ha hb (hm.trans hn.symm)
        exact ⟨m, rfl, rfl⟩
      · intro h
        obtain ⟨k, hk, hk'⟩ := h
        rw [hk', ← hk, htext]
    | _ => cases hb
  | _ => cases ha

/-- Rows with keys ask for integers, and for the integer of each row. -/
theorem exists_distinctKeys {rows : List Json} {column : String}
    (hkeys : ∀ row ∈ rows, ∀ value, row.get? column = some value → value.IsKey) :
    ∃ ns : List Int, (distinctKeys rows column).values = ns.map .int ∧
      ∀ row ∈ rows, ∀ n, row.get? column = some (.int n) → n ∈ ns := by
  have hparam : ∀ n : Int, (Json.int n).IsKey → keyParam? (.int n) = some (.int n) :=
    fun n hn => by rw [keyParam?, if_pos hn.2]
  have hentries : ∀ pair ∈ (distinctKeys rows column).entries,
      ∃ n : Int, (Json.int n).IsKey ∧ pair = (toString n, .int n) := by
    rintro ⟨text, param⟩ hpair
    obtain ⟨row, hrow, hpair⟩ := List.mem_filterMap.1 (Entries.mem_of_mem_ofList hpair)
    obtain ⟨value, hvalue, htext, hvalueParam⟩ := keyPair?_eq_some_iff.1 hpair
    have hkey := hkeys row hrow value hvalue
    cases value with
    | null => cases htext
    | int n =>
      rw [hparam n hkey] at hvalueParam
      obtain rfl := Option.some.inj hvalueParam
      exact ⟨n, hkey, congrArg (·, _) (Option.some.inj htext).symm⟩
    | _ => cases hkey
  obtain ⟨ns, hns⟩ : (distinctKeys rows column).values ∈ Set.range (List.map Sql.Param.int) := by
    rw [Set.range_list_map]
    intro param hmem
    obtain ⟨pair, hpair, rfl⟩ := List.mem_map.1 hmem
    obtain ⟨n, -, rfl⟩ := hentries pair hpair
    exact ⟨n, rfl⟩
  refine ⟨ns, hns.symm, fun row hrow n hvalue => ?_⟩
  have hn := hkeys row hrow _ hvalue
  have hpair : keyPair? column row = some (toString n, .int n) :=
    keyPair?_eq_some_iff.2 ⟨_, hvalue, rfl, hparam n hn⟩
  obtain ⟨param, hmem⟩ := Entries.exists_mem_ofList (List.mem_filterMap.2 ⟨row, hrow, hpair⟩)
  -- of the rows with this text the last one counts, and it has the same integer
  obtain ⟨m, hm, heq⟩ := hentries _ hmem
  obtain ⟨htext, rfl⟩ := Prod.mk.inj heq
  obtain rfl := toString_inj_of_isKey hn hm htext
  have hasked : Sql.Param.int n ∈ (distinctKeys rows column).values :=
    List.mem_map.2 ⟨_, hmem, rfl⟩
  rw [← hns] at hasked
  obtain ⟨k, hk, heq⟩ := List.mem_map.1 hasked
  exact Sql.Param.int.inj heq ▸ hk

end EagerLoad

namespace Sql

open EagerLoad

variable {V : Type} {db : Store V} {json : V → Json} {owner target : Schema} {relation : Relation}
variable {ns : List Int}

/-- A batch asks for the key of each of its rows. -/
theorem Store.Suits.exists_asked (hdb : db.Suits json owner target relation)
    {batch : List (Row V)} (hbatch : ∀ row ∈ batch, row ∈ db.rows owner.table) :
    ∃ ns : List Int,
      (distinctKeys (batch.map (shownRow json)) relation.localKey).values =
        ns.map .int ∧
      ∀ row ∈ batch, db.AsksFor target relation (ns.map .int) row := by
  have hkeys : ∀ row ∈ batch.map (shownRow json),
      ∀ value, row.get? relation.localKey = some value → value.IsKey := by
    rw [List.forall_mem_map]
    intro row hrow value hvalue
    have hlocal := hdb.locals row (hbatch row hrow)
    rwa [shown, ← get?_shownRow, hvalue] at hlocal
  obtain ⟨ns, hns, hasked⟩ := exists_distinctKeys hkeys
  refine ⟨ns, hns, fun row hrow cell hcell hequal => ?_⟩
  obtain ⟨n, hlocal, howner⟩ :=
    (hdb.equal _ _ (hdb.locals row (hbatch row hrow)) (hdb.owners cell hcell)).1 hequal
  refine (hdb.isIn cell ns (hdb.owners cell hcell)).2 ⟨n, ?_, howner⟩
  refine hasked _ (List.mem_map.2 ⟨row, hrow, rfl⟩) n ?_
  rw [shown, ← get?_shownRow] at hlocal
  cases hget : (shownRow json row).get? relation.localKey with
  | none => simp [hget] at hlocal
  | some value => simpa [hget] using hlocal

/-! ### Loading from a database -/

variable [LinearOrder V]

/-- What a driver returns when the children of owners with these keys are asked for. -/
def Store.fetched (db : Store V) (json : V → Json) (target : Schema) (relation : Relation)
    (keys : List Param) : List Json :=
  (db.ordered (selectChildren target relation keys)).map (childRecord json target relation)

/-- The answer to a question about children depends on the question only. -/
theorem steady_connection (db : Store V) (json : V → Json) :
    (db.connection json).Steady (db.fetched json) := by
  intro target relation keys state
  have hanswer : db.answer (selectChildren target relation keys) =
      .rows ((db.ordered (selectChildren target relation keys)).map fun t =>
        (selectChildren target relation []).projections.flatMap (·.cells t)) := by
    unfold Store.answer Store.selected selectChildren
    cases relation.via <;> rfl
  simp only [Store.connection, hanswer, List.map_map]
  rfl

namespace Store.Suits

variable (hdb : db.Suits json owner target relation)
  (hlink : ∀ via ∈ relation.via, via.table ≠ target.table)

include hdb hlink

/-- Asking for no key finds nothing, so asking can be left out. -/
theorem foundFor_eq {rows : List Json}
    (hkeys : (distinctKeys rows relation.localKey).values = ns.map .int) :
    foundFor (db.fetched json) target relation rows =
      db.fetched json target relation (ns.map .int) := by
  unfold foundFor
  rw [hkeys]
  cases ns with
  | cons n ns => rfl
  | nil =>
    refine (List.map_eq_nil_iff.2 ?_).symm
    refine List.eq_nil_iff_forall_not_mem.2 fun t ht => ?_
    obtain ⟨n, hmem, -⟩ := hdb.exists_owned hlink (Store.mem_ordered_selectChildren.1 ht)
    cases hmem

/-- **What the loader hands to an owner** are the children that carry its key. -/
theorem childrenOf_eq {row : Row V}
    (hlocal : (shown json (row.get? relation.localKey)).IsKey) :
    childrenOf (rowKey? relation.localKey (shownRow json row))
        (((db.fetched json target relation (ns.map .int)).map (rowKey? (ownerColumn relation))).zip
          ((db.fetched json target relation (ns.map .int)).map (stripOwner relation))) =
      (db.children target relation (ns.map .int) row).map (shownRow json) := by
  have hequal : ∀ t ∈ db.ordered (selectChildren target relation (ns.map .int)),
      (db.equal (row.get? relation.localKey) (t.cell (ownedBy target relation)) ↔
        ∃ n, shown json (row.get? relation.localKey) = .int n ∧
          shown json (t.cell (ownedBy target relation)) = .int n) := fun t ht =>
    hdb.equal _ _ hlocal (hdb.owned_isKey hlink (Store.mem_ordered_selectChildren.1 ht))
  rw [rowKey?_shownRow, Store.children, Store.fetched]
  cases hkey : keyText? (shown json (row.get? relation.localKey)) with
  | none =>
    have hnone : ((db.ordered (selectChildren target relation (ns.map .int))).filter fun t =>
        db.equal (row.get? relation.localKey) (t.cell (ownedBy target relation))) = [] := by
      refine List.filter_eq_nil_iff.2 fun t ht hholds => ?_
      obtain ⟨n, hn, -⟩ := (hequal t ht).1 hholds
      rw [hn] at hkey
      cases hkey
    rw [hnone]
    rfl
  | some text =>
    rw [childrenOf_zip, List.filter_map, List.map_map, List.map_map]
    have hfilter : ∀ t ∈ db.ordered (selectChildren target relation (ns.map .int)),
        ((fun child => decide (rowKey? (ownerColumn relation) child = some text)) ∘
            childRecord json target relation) t =
          db.equal (row.get? relation.localKey) (t.cell (ownedBy target relation)) := by
      intro t ht
      have hfound := Store.mem_ordered_selectChildren.1 ht
      rw [Bool.eq_iff_iff, Function.comp_apply, decide_eq_true_eq, hequal t ht,
        hdb.rowKey?_childRecord hlink hfound,
        keyText?_eq_iff hlocal (hdb.owned_isKey hlink hfound) hkey]
    rw [List.filter_congr hfilter]
    refine List.map_congr_left fun t ht => ?_
    exact hdb.stripOwner_childRecord hlink
      (Store.mem_ordered_selectChildren.1 (List.mem_filter.1 ht).1)

/-- **Loading a relation** attaches to every row of a batch its children. -/
theorem load_eq {reg : Registry} {name : String}
    (hrelation : owner.relationAt? name = some relation)
    (htarget : reg.entities.get? relation.target = some target) {batch : List (Row V)}
    (hbatch : ∀ row ∈ batch, row ∈ db.rows owner.table)
    (hkeys : (distinctKeys (batch.map (shownRow json)) relation.localKey).values = ns.map .int)
    (session : Session Unit) :
    (load reg (db.connection json) (.node name .nil .nil) owner (batch.map (shownRow json))
        session).1 =
      .ok (batch.map fun row => (shownRow json row).set name
        (attached relation.cardinality
          ((db.children target relation (ns.map .int) row).map (shownRow json)))) := by
  obtain ⟨after, hstep⟩ : ∃ after, load reg (db.connection json) (.node name .nil .nil) owner
      (batch.map (shownRow json)) session =
        load reg (db.connection json) .nil owner _ after :=
    load_node_of_steady (steady_connection db json) hrelation htarget (fun _ => rfl) session
  rw [hstep, load, hdb.foundFor_eq hlink hkeys, attachFound, attach, List.map_map]
  refine congrArg Except.ok (List.map_congr_left fun row hrow => ?_)
  rw [Function.comp_apply, hdb.childrenOf_eq hlink (hdb.locals row (hbatch row hrow))]

end Store.Suits

/-! ### Joining -/

omit [LinearOrder V]

/-- The joins of a relation lead from its owner to the rows that are related to it. -/
theorem exists_mem_follow_start (halias : ¬ IsGenerated owner.table) (entry : Nat) (hop : Hop)
    {row child : Row V} :
    (∃ u ∈ db.follow ((Path.start owner entry).follow hop).joins [(owner.table, row)],
        u.row? ((Path.start owner entry).follow hop).tableAlias = some child) ↔
      Related db hop.relation hop.target row child := by
  have haliases := aliases_hopJoins entry owner.table (extendRelations "" hop.name) hop
  have hnodup : (aliases (hopJoins owner.table (joinAlias entry (extendRelations "" hop.name))
      hop)).Nodup := by
    unfold hopJoins
    cases hop.relation.via with
    | none => simp
    | some via => simp [linkAlias_ne]
  have hjoins : ((Path.start owner entry).follow hop).joins =
      hopJoins owner.table (joinAlias entry (extendRelations "" hop.name)) hop :=
    foldl_pushJoin hnodup
  rw [hjoins]
  refine exists_mem_follow_hopJoins (Tuple.row?_cons_self owner.table row []) ?_
  rw [haliases]
  intro hmem
  obtain ⟨text, -, heq⟩ := List.mem_map.1 hmem
  exact halias (heq ▸ isGenerated_joinAlias entry text)

end Sql

namespace EagerLoad

open Sql

/-- **Filtering through a relation and embedding it mean the same relation.** Whatever rows of the
owner are loaded together, the children that a row gets are those that the joins of a filter lead to
from it. They are in the order of their primary keys, and each occurs once for every row of the link
table that connects it. -/
theorem embedding_means_joining {V : Type} [LinearOrder V] {reg : Registry} {owner : Schema}
    {name : String} {relation : Relation} (hvalid : reg.validate = .ok ())
    (howner : owner ∈ reg.schemas) (hrelation : owner.relationAt? name = some relation)
    (halias : ¬ IsGenerated owner.table) :
    ∃ target, reg.entities.get? relation.target = some target ∧
      ∀ (db : Store V) (json : V → Json), (∀ via ∈ relation.via, via.table ≠ target.table) →
        db.Suits json owner target relation →
        ∀ batch : List (Row V), (∀ row ∈ batch, row ∈ db.rows owner.table) →
          ∃ children : Row V → List (Row V),
            (∀ session, (load reg (db.connection json) (.node name .nil .nil) owner
                (batch.map (shownRow json)) session).1 =
              .ok (batch.map fun row => (shownRow json row).set name
                (attached relation.cardinality ((children row).map (shownRow json))))) ∧
            ∀ row ∈ batch,
              (∀ (entry : Nat) (child : Row V), child ∈ children row ↔
                ∃ u ∈ db.follow ((Path.start owner entry).follow ⟨name, relation, target⟩).joins
                    [(owner.table, row)],
                  u.row? ((Path.start owner entry).follow ⟨name, relation, target⟩).tableAlias =
                    some child) ∧
              ((children row).Pairwise fun a b =>
                ascends (a.get? target.primaryKey) (b.get? target.primaryKey)) ∧
              ∀ child ∈ db.rows target.table,
                (children row).count child = db.connections relation row child := by
  obtain ⟨target, htarget⟩ := Registry.exists_target hvalid howner hrelation
  refine ⟨target, htarget, fun db json hlink hdb batch hbatch => ?_⟩
  obtain ⟨ns, hkeys, hasks⟩ := hdb.exists_asked hbatch
  refine ⟨_, fun session => hdb.load_eq hlink hrelation htarget hbatch hkeys session,
    fun row hrow => ⟨fun entry child => ?_, db.pairwise_children .., fun child hchild => ?_⟩⟩
  · rw [Store.mem_children hlink (hasks row hrow), exists_mem_follow_start halias]
  · exact Store.count_children hlink (hasks row hrow) hdb.unique.of_map hchild

/-! ### A shared role -/

/-- Two members; one has a role twice, and the other has it once but no team. -/
def clubStore : Store Int where
  rows table :=
    if table = "members" then [.ofList [("id", 10), ("team_id", 1)], .ofList [("id", 11)]]
    else if table = "member_roles" then
      [.ofList [("member_id", 10), ("role_id", 5)], .ofList [("member_id", 11), ("role_id", 5)],
        .ofList [("member_id", 10), ("role_id", 5)], .ofList [("role_id", 6)]]
    else if table = "roles" then [.ofList [("id", 6)], .ofList [("id", 5)]]
    else []
  equal a b := a.isSome && a == b
  passes cell
    | .isIn keys => cell.any fun n => Param.int n ∈ keys
    | _ => false

/-- The roles of a member. -/
def rolesOf : Relation :=
  ⟨"role", .toMany, "id", "id", some ⟨"member_roles", "member_id", "role_id"⟩⟩

/-- Roles. -/
def roles : Schema := Schema.new "role" "roles"

theorem suits_clubStore : clubStore.Suits Json.int members roles rolesOf where
  locals := by decide +kernel
  owners := by decide +kernel
  equal a b _ _ := by
    cases a with
    | none => simp [clubStore, shown]
    | some m =>
      cases b with
      | none => simp [clubStore, shown]
      | some n => simpa [clubStore, shown] using eq_comm
  isIn a ns _ := by
    cases a <;> simp [clubStore, shown]
  unique := by decide +kernel
  unowned := by decide +kernel

/-- The joins lead from the first member to the role, and it gets the role once for each of the two
rows that give it. -/
theorem embedding_means_joining_of_roles :
    club.validate = .ok () ∧ members ∈ club.schemas ∧
      members.relationAt? "roles" = some rolesOf ∧ ¬ IsGenerated members.table ∧
      clubStore.Suits Json.int members roles rolesOf ∧
      ∃ children : Row Int → List (Row Int),
        (load club (clubStore.connection Json.int) (.node "roles" .nil .nil) members
            ((clubStore.rows "members").map (shownRow Json.int)) ⟨(), []⟩).1 =
          .ok ((clubStore.rows "members").map fun row => (shownRow Json.int row).set "roles"
            (.arr ((children row).map (shownRow Json.int)))) ∧
        (children (.ofList [("id", 10), ("team_id", 1)])).count (.ofList [("id", 5)]) = 2 ∧
        ∃ u ∈ clubStore.follow ((Path.start members 1).follow ⟨"roles", rolesOf, roles⟩).joins
            [("members", .ofList [("id", 10), ("team_id", 1)])],
          u.row? "j1_roles" = some (.ofList [("id", 5)]) := by
  have hvalid : club.validate = .ok () := by decide +kernel
  have howner : members ∈ club.schemas := by decide +kernel
  have hrelation : members.relationAt? "roles" = some rolesOf := by decide +kernel
  have halias : ¬ IsGenerated "members" := by
    intro h
    obtain ⟨digits, rest, -, -, htext⟩ := h
    exact absurd (congrArg List.head? htext) (by simp)
  refine ⟨hvalid, howner, hrelation, halias, suits_clubStore, ?_⟩
  obtain ⟨target, htarget, hagree⟩ :=
    @embedding_means_joining Int _ _ _ _ _ hvalid howner hrelation halias
  obtain rfl : target = roles := Option.some.inj (htarget.symm.trans (by decide +kernel))
  obtain ⟨children, hload, hchildren⟩ := hagree clubStore Json.int (by decide +kernel)
    suits_clubStore (clubStore.rows "members") (fun _ hrow => hrow)
  obtain ⟨hjoined, -, hcount⟩ :=
    hchildren (.ofList [("id", 10), ("team_id", 1)]) (by decide +kernel)
  have htwice : (children (.ofList [("id", 10), ("team_id", 1)])).count (.ofList [("id", 5)]) = 2 :=
    (hcount _ (by decide +kernel)).trans (by decide +kernel)
  have hmem := List.count_pos_iff.1 (Nat.lt_of_lt_of_eq Nat.two_pos htwice.symm)
  exact ⟨children, hload _, htwice, (hjoined 1 _).1 hmem⟩

end EagerLoad

end QuerySieve
