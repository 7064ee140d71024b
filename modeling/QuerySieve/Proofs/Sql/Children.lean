import QuerySieve.Proofs.Sql.Chain
import QuerySieve.Proofs.Sql.PageTotal

/-!
# QuerySieve.Proofs.Sql.Children

**What the question about children finds**, by the textbook meaning.

The statement asks for the children of many owners at once, and every tuple that it finds carries
the key of one owner in the column `ownedBy`. `Store.children` are the rows of the tuples that carry
the key of a given owner. If that key was asked for, then these are the rows that are related to the
owner, each as often as it is connected with it (`Store.children_perm`), whatever else was asked
for.
-/

namespace QuerySieve.Sql

variable {V : Type} {db : Store V} {target : Schema} {relation : Relation} {keys : List Param}
variable {owner row : Row V}

/-- The column with the owner's key, in the statement that asks for children. -/
def ownedBy (target : Schema) (relation : Relation) : Column :=
  match relation.via with
  | some via => ⟨via.table, via.sourceKey⟩
  | none => ⟨target.table, relation.foreignKey⟩

/-- The cells in which the database has keys of owners. -/
def Store.ownerCells (db : Store V) (target : Schema) (relation : Relation) : List (Option V) :=
  match relation.via with
  | some via => (db.rows via.table).map (·.get? via.sourceKey)
  | none => (db.rows target.table).map (·.get? relation.foreignKey)

/-- How often a relation connects an owner with a row: once for each row of the link table that
belongs to both. Without a link table that is once, or not at all. -/
def Store.connections (db : Store V) (relation : Relation) (owner row : Row V) : Nat :=
  match relation.via with
  | some via => (db.rows via.table).countP fun link =>
      db.equal (owner.get? relation.localKey) (link.get? via.sourceKey) &&
        db.equal (link.get? via.targetKey) (row.get? relation.foreignKey)
  | none => if db.equal (owner.get? relation.localKey) (row.get? relation.foreignKey) then 1 else 0

/-- Rows are related if they are connected at all. -/
theorem related_iff_connections :
    Related db relation target owner row ↔
      row ∈ db.rows target.table ∧ 0 < db.connections relation owner row := by
  unfold Related Store.connections
  cases relation.via with
  | none =>
    refine and_congr_right fun _ => ?_
    by_cases h : db.equal (owner.get? relation.localKey) (row.get? relation.foreignKey) <;> simp [h]
  | some via =>
    simp only [List.countP_pos_iff, Bool.and_eq_true]

/-! ### The tuples -/

theorem Tuple.rowD_cons_self (name : String) (row : Row V) (t : Tuple V) :
    rowD ((name, row) :: t) name = row := by
  simp [rowD]

theorem Tuple.rowD_cons_of_ne {name other : String} (row : Row V) (t : Tuple V)
    (h : other ≠ name) : rowD ((name, row) :: t) other = t.rowD other := by
  simp [rowD, row?_cons_of_ne row t h]

/-- Without a link table a tuple is a row with a key that is asked for. -/
theorem Store.tuples_selectChildren_of_none (hvia : relation.via = none) :
    db.tuples (selectChildren target relation keys) =
      ((db.rows target.table).filter fun row =>
        db.passes (row.get? relation.foreignKey) (.isIn keys)).map fun row =>
          [(target.table, row)] := by
  unfold Store.tuples selectChildren
  simp only [hvia]
  induction db.rows target.table with
  | nil => rfl
  | cons row rows ih =>
    rw [List.flatMap_cons, ih, List.filter_cons, Store.extend_nil]
    simp only [List.filter_cons, List.filter_nil, Option.all_some, Condition.holds,
      Tuple.cell_eq_rowD, Tuple.rowD_cons_self]
    split <;> rfl

/-- With a link table it is a row with a row of the link table that leads to it from a key that is
asked for. -/
theorem Store.tuples_selectChildren_of_some {via : LinkTable} (hvia : relation.via = some via)
    (hlink : via.table ≠ target.table) :
    db.tuples (selectChildren target relation keys) =
      (db.rows target.table).flatMap fun row =>
        ((db.rows via.table).filter fun link =>
          db.equal (link.get? via.targetKey) (row.get? relation.foreignKey) &&
            db.passes (link.get? via.sourceKey) (.isIn keys)).map fun link =>
              [(via.table, link), (target.table, row)] := by
  unfold Store.tuples selectChildren
  simp only [hvia]
  refine List.flatMap_congr fun row _ => ?_
  have hextend : db.extend [] = fun t => [t] := rfl
  rw [Store.extend, hextend, List.flatMap_singleton', List.filter_map, List.filter_map,
    List.filter_filter]
  congr 1
  refine List.filter_congr fun link _ => ?_
  simp only [Function.comp_apply, Join.name, Option.getD_none, Store.meets, Option.all_some,
    Condition.holds, Tuple.cell_eq_rowD, Tuple.rowD_cons_self,
    Tuple.rowD_cons_of_ne _ _ hlink.symm, Bool.and_comm]

/-- A tuple has a row of the target, and carries an owner's key that is asked for. -/
theorem Store.of_mem_tuples_selectChildren (hlink : ∀ via ∈ relation.via, via.table ≠ target.table)
    {t : Tuple V} (ht : t ∈ db.tuples (selectChildren target relation keys)) :
    t.rowD target.table ∈ db.rows target.table ∧
      t.cell (ownedBy target relation) ∈ db.ownerCells target relation ∧
      db.passes (t.cell (ownedBy target relation)) (.isIn keys) := by
  unfold ownedBy Store.ownerCells
  cases hvia : relation.via with
  | none =>
    rw [Store.tuples_selectChildren_of_none hvia] at ht
    obtain ⟨row, hrow, rfl⟩ := List.mem_map.1 ht
    obtain ⟨hmem, hpasses⟩ := List.mem_filter.1 hrow
    simp only [Tuple.cell_eq_rowD, Tuple.rowD_cons_self]
    exact ⟨hmem, List.mem_map.2 ⟨row, hmem, rfl⟩, hpasses⟩
  | some via =>
    have hne := hlink via hvia
    rw [Store.tuples_selectChildren_of_some hvia hne] at ht
    obtain ⟨row, hrow, ht⟩ := List.mem_flatMap.1 ht
    obtain ⟨link, hlinkrow, rfl⟩ := List.mem_map.1 ht
    obtain ⟨hmem, hboth⟩ := List.mem_filter.1 hlinkrow
    simp only [Tuple.cell_eq_rowD, Tuple.rowD_cons_self, Tuple.rowD_cons_of_ne _ _ hne.symm]
    exact ⟨hrow, List.mem_map.2 ⟨link, hmem, rfl⟩, (Bool.and_eq_true_iff.1 hboth).2⟩

/-! ### The children of one owner -/

theorem count_flatMap_replicate {α : Type} [DecidableEq α] {xs : List α} {x : α}
    (hnodup : xs.Nodup) (hx : x ∈ xs) (times : α → Nat) :
    (xs.flatMap fun y => List.replicate (times y) y).count x = times x := by
  induction xs with
  | nil => cases hx
  | cons y ys ih =>
    obtain ⟨hy, hys⟩ := List.nodup_cons.1 hnodup
    rw [List.flatMap_cons, List.count_append, List.count_replicate]
    by_cases hxy : y = x
    · have hrest : x ∉ ys.flatMap fun y => List.replicate (times y) y := by
        intro hmem
        obtain ⟨other, hother, hmem⟩ := List.mem_flatMap.1 hmem
        obtain rfl := (List.mem_replicate.1 hmem).2
        exact hy (hxy ▸ hother)
      simp [hxy, List.count_eq_zero.2 hrest]
    · have hmem : x ∈ ys := (List.mem_cons.1 hx).resolve_left fun heq => hxy heq.symm
      simp [hxy, ih hys hmem]

/-- The key of the owner is among those that are asked for. -/
def Store.AsksFor (db : Store V) (target : Schema) (relation : Relation) (keys : List Param)
    (owner : Row V) : Prop :=
  ∀ cell ∈ db.ownerCells target relation,
    db.equal (owner.get? relation.localKey) cell → db.passes cell (.isIn keys)

/-- The tuples that carry the key of an owner are those of its connections. -/
theorem Store.map_filter_tuples_selectChildren
    (hlink : ∀ via ∈ relation.via, via.table ≠ target.table)
    (hasks : db.AsksFor target relation keys owner) :
    ((db.tuples (selectChildren target relation keys)).filter fun t =>
        db.equal (owner.get? relation.localKey) (t.cell (ownedBy target relation))).map
          (·.rowD target.table) =
      (db.rows target.table).flatMap fun row =>
        List.replicate (db.connections relation owner row) row := by
  unfold Store.AsksFor Store.ownerCells at hasks
  unfold ownedBy Store.connections
  cases hvia : relation.via with
  | none =>
    simp only [hvia, List.forall_mem_map] at hasks ⊢
    rw [Store.tuples_selectChildren_of_none hvia]
    rw [List.filter_map, List.map_map, List.filter_filter]
    generalize db.rows target.table = rows at hasks
    induction rows with
    | nil => rfl
    | cons row rows ih =>
      have hrow := hasks row List.mem_cons_self
      rw [List.flatMap_cons, ← ih fun row hmem => hasks row (List.mem_cons_of_mem _ hmem),
        List.filter_cons]
      by_cases hequal : db.equal (owner.get? relation.localKey) (row.get? relation.foreignKey)
      · simp [Tuple.cell_eq_rowD, Tuple.rowD_cons_self, hequal, hrow hequal]
      · simp [Tuple.cell_eq_rowD, Tuple.rowD_cons_self, hequal]
  | some via =>
    simp only [hvia, List.forall_mem_map] at hasks ⊢
    rw [Store.tuples_selectChildren_of_some hvia (hlink via hvia), List.filter_flatMap,
      List.map_flatMap]
    refine List.flatMap_congr fun row _ => ?_
    rw [List.filter_map, List.map_map, List.filter_filter, List.countP_eq_length_filter,
      ← List.map_const']
    refine (congrArg (List.map _) (List.filter_congr fun link hmem => ?_)).trans
      (List.map_congr_left fun link _ => ?_)
    · have hpasses := hasks link hmem
      simp only [Function.comp_apply, Tuple.cell_eq_rowD, Tuple.rowD_cons_self]
      -- a link that carries the owner's key passes the test of the statement
      by_cases hequal : db.equal (owner.get? relation.localKey) (link.get? via.sourceKey)
      · simp [hequal, hpasses hequal]
      · simp [hequal]
    · simp only [Function.comp_apply, Tuple.rowD_cons_self,
        Tuple.rowD_cons_of_ne _ _ (hlink via hvia).symm]

variable [LinearOrder V]

theorem Store.ordered_selectChildren (db : Store V) (target : Schema) (relation : Relation)
    (keys : List Param) :
    db.ordered (selectChildren target relation keys) =
      (db.tuples (selectChildren target relation keys)).mergeSort fun t u =>
        ascends ((t.rowD target.table).get? target.primaryKey)
          ((u.rowD target.table).get? target.primaryKey) := by
  have horder : (selectChildren target relation keys).order =
      some ⟨target.table, target.primaryKey⟩ := by
    unfold selectChildren
    cases relation.via <;> rfl
  unfold Store.ordered
  simp only [horder, Tuple.cell_eq_rowD]

theorem Store.mem_ordered_selectChildren {t : Tuple V} :
    t ∈ db.ordered (selectChildren target relation keys) ↔
      t ∈ db.tuples (selectChildren target relation keys) := by
  rw [Store.ordered_selectChildren]
  exact (List.mergeSort_perm _ _).mem_iff

/-- The rows of the tuples that carry the key of an owner, in the order of the statement. -/
def Store.children (db : Store V) (target : Schema) (relation : Relation) (keys : List Param)
    (owner : Row V) : List (Row V) :=
  ((db.ordered (selectChildren target relation keys)).filter fun t =>
    db.equal (owner.get? relation.localKey) (t.cell (ownedBy target relation))).map
      (·.rowD target.table)

/-- **The children of an owner** are the rows that are connected with it, each as often as it is. -/
theorem Store.children_perm (hlink : ∀ via ∈ relation.via, via.table ≠ target.table)
    (hasks : db.AsksFor target relation keys owner) :
    (db.children target relation keys owner).Perm
      ((db.rows target.table).flatMap fun row =>
        List.replicate (db.connections relation owner row) row) := by
  rw [← Store.map_filter_tuples_selectChildren hlink hasks]
  rw [Store.children, Store.ordered_selectChildren]
  exact ((List.mergeSort_perm _ _).filter _).map _

/-- The children of an owner are in the order of their primary keys. -/
theorem Store.pairwise_children (db : Store V) (target : Schema) (relation : Relation)
    (keys : List Param) (owner : Row V) :
    (db.children target relation keys owner).Pairwise fun a b =>
      ascends (a.get? target.primaryKey) (b.get? target.primaryKey) := by
  have hordered : (db.ordered (selectChildren target relation keys)).Pairwise fun t u =>
      ascends ((t.rowD target.table).get? target.primaryKey)
        ((u.rowD target.table).get? target.primaryKey) := by
    rw [Store.ordered_selectChildren]
    exact List.pairwise_mergeSort
      (fun t _ _ => ascends_trans ((t.rowD target.table).get? target.primaryKey) _ _)
      (fun t _ => ascends_total ((t.rowD target.table).get? target.primaryKey) _) _
  exact List.pairwise_map.2 (hordered.sublist List.filter_sublist)

/-- A row is a child of an owner exactly if it is related to it. -/
theorem Store.mem_children (hlink : ∀ via ∈ relation.via, via.table ≠ target.table)
    (hasks : db.AsksFor target relation keys owner) :
    row ∈ db.children target relation keys owner ↔ Related db relation target owner row := by
  rw [(Store.children_perm hlink hasks).mem_iff, List.mem_flatMap, related_iff_connections]
  constructor
  · intro h
    obtain ⟨other, hother, hmem⟩ := h
    obtain ⟨hne, rfl⟩ := List.mem_replicate.1 hmem
    exact ⟨hother, Nat.pos_of_ne_zero hne⟩
  · intro h
    exact ⟨row, h.1, List.mem_replicate.2 ⟨Nat.ne_of_gt h.2, rfl⟩⟩

/-- A child of an owner occurs once for each connection. -/
theorem Store.count_children (hlink : ∀ via ∈ relation.via, via.table ≠ target.table)
    (hasks : db.AsksFor target relation keys owner) (hnodup : (db.rows target.table).Nodup)
    (hrow : row ∈ db.rows target.table) :
    (db.children target relation keys owner).count row = db.connections relation owner row := by
  rw [(Store.children_perm hlink hasks).count_eq]
  exact count_flatMap_replicate hnodup hrow _

end QuerySieve.Sql
