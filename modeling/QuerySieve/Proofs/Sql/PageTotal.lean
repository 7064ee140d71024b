import Mathlib.Data.Int.Order.Basic
import QuerySieve.Proofs.Sql.Scope

/-!
# QuerySieve.Proofs.Sql.PageTotal

**The page and the total speak of one result set.**

The statement of the page repeats no row by DISTINCT, and only if there are joins; the statement of
the total counts distinct keys. Both come from the same tuples, `Store.found`, in which a root row
occurs as often as rows can be joined to it. The bridge is the list of these root rows with all
repetitions (`Store.roots`):

* sorted and without repetitions it is what the page is cut from (`selected_selectPage`);
* its keys without repetitions are what the total counts (`counted_selectCount`).

Where rows have keys of their own, no two rows share a key, so both have the same length.
-/

namespace QuerySieve.Sql

variable {V : Type}

/-! ### Keys -/

/-- Rows have a key of their own: none lacks it, and no two share it. -/
structure Keyed (key : String) (rows : List (Row V)) : Prop where
  present : ∀ row ∈ rows, (row.get? key).isSome
  unique : (rows.map (·.get? key)).Nodup

namespace Keyed

variable {key : String} {rows : List (Row V)}

theorem nodup (h : Keyed key rows) : rows.Nodup := h.unique.of_map

/-- The key tells the row. -/
theorem eq_of_get?_eq (h : Keyed key rows) {a b : Row V} (ha : a ∈ rows) (hb : b ∈ rows)
    (heq : a.get? key = b.get? key) : a = b :=
  List.inj_on_of_nodup_map h.unique ha hb heq

/-- Some of the rows, however often each, have as many keys as there are different rows. -/
theorem length_dedup_filterMap [DecidableEq V] (h : Keyed key rows) {found : List (Row V)}
    (hsub : ∀ row ∈ found, row ∈ rows) :
    (found.filterMap (·.get? key)).dedup.length = found.dedup.length := by
  have hmem : ∀ row ∈ found.dedup, row ∈ rows := fun row hrow => hsub row (List.mem_dedup.1 hrow)
  have hnodup : (found.dedup.filterMap (·.get? key)).Nodup := by
    rw [List.Nodup, List.pairwise_filterMap]
    refine (List.nodup_dedup found).imp_of_mem ?_
    intro a b ha hb hne x hx y hy heq
    exact hne (h.eq_of_get?_eq (hmem a ha) (hmem b hb) (by rw [hx, hy, heq]))
  have hperm : (found.filterMap (·.get? key)).dedup.Perm (found.dedup.filterMap (·.get? key)) := by
    rw [List.perm_ext_iff_of_nodup (List.nodup_dedup _) hnodup]
    intro x
    simp only [List.mem_dedup, List.mem_filterMap]
  rw [hperm.length_eq, List.filterMap_length_eq_length]
  exact fun row hrow => h.present row (hmem row hrow)

end Keyed

/-! ### Root rows with repetitions -/

/-- The row under a name; the row of nulls if there is none. -/
def Tuple.rowD (t : Tuple V) (name : String) : Row V := (t.row? name).getD .empty

theorem Tuple.cell_eq_rowD (t : Tuple V) (name column : String) :
    t.cell ⟨name, column⟩ = (t.rowD name).get? column := by
  unfold Tuple.cell Tuple.rowD
  cases t.row? name with
  | none => rfl
  | some row => rfl

theorem Projection.cells_all (t : Tuple V) (table : String) :
    (Projection.all table).cells t = (t.rowD table).entries := by
  rw [Projection.cells, Tuple.rowD]
  cases t.row? table with
  | none => rfl
  | some row => rfl

theorem entries_injective : Function.Injective (Dict.entries : Row V → List (String × V)) := by
  intro a b h
  cases a
  cases b
  simpa using h

variable {db : Store V} {root : Schema} {predicate : Option Predicate}

/-- The root rows that the predicate finds, each as often as it is found. -/
def Store.roots (db : Store V) (root : Schema) (predicate : Option Predicate) : List (Row V) :=
  (db.found root predicate).map (·.rowD root.table)

theorem Store.mem_roots (hroot : root.table ∉ aliases (joinsOf predicate)) {row : Row V} :
    row ∈ db.roots root predicate ↔
      row ∈ db.rows root.table ∧ ∀ p ∈ predicate, p.Meets db root.table row := by
  rw [← Store.exists_mem_found_iff hroot, Store.roots, List.mem_map]
  have hrow : ∀ t ∈ db.found root predicate, ∃ start, t.row? root.table = some start := by
    intro t ht
    obtain ⟨start, -, ht, -⟩ := Store.mem_found.1 ht
    exact ⟨start, Store.row?_root hroot ht⟩
  constructor
  · intro h
    obtain ⟨t, ht, rfl⟩ := h
    obtain ⟨start, hstart⟩ := hrow t ht
    exact ⟨t, ht, by simp [Tuple.rowD, rootAlias, hstart]⟩
  · intro h
    obtain ⟨t, ht, hstart⟩ := h
    exact ⟨t, ht, congrArg (·.getD .empty) hstart⟩

/-- Without joins every row is found once at most, where it stands. -/
theorem Store.roots_sublist (hjoins : joinsOf predicate = []) :
    (db.roots root predicate).Sublist (db.rows root.table) := by
  unfold Store.roots Store.found
  rw [hjoins]
  induction db.rows root.table with
  | nil => exact List.Sublist.slnil
  | cons row rows ih =>
    rw [List.flatMap_cons, List.map_append]
    show List.Sublist _ ([row] ++ rows)
    refine List.Sublist.append ?_ ih
    refine ((List.filter_sublist).map _).trans ?_
    have hself : Tuple.rowD [(root.table, row)] root.table = row := by simp [Tuple.rowD]
    show List.Sublist [Tuple.rowD [(root.table, row)] root.table] [row]
    rw [hself]

/-! ### The two statements -/

variable [LinearOrder V]

/-- The root rows that the predicate finds, in the order of their keys and each as often as it is
found. -/
def Store.ranked (db : Store V) (root : Schema) (predicate : Option Predicate) : List (Row V) :=
  (db.roots root predicate).mergeSort fun a b =>
    ascends (a.get? root.primaryKey) (b.get? root.primaryKey)

theorem ascends_trans (a b c : Option V) (hab : ascends a b) (hbc : ascends b c) : ascends a c := by
  cases a with
  | none => rfl
  | some x =>
    cases b with
    | none => cases hab
    | some y =>
      cases c with
      | none => cases hbc
      | some z =>
        simp only [ascends, decide_eq_true_eq] at hab hbc ⊢
        exact le_trans hab hbc

theorem ascends_total (a b : Option V) : ascends a b || ascends b a := by
  cases a with
  | none => rfl
  | some x =>
    cases b with
    | none => rfl
    | some y => simpa [ascends] using le_total x y

theorem Store.pairwise_ranked (db : Store V) (root : Schema) (predicate : Option Predicate) :
    (db.ranked root predicate).Pairwise fun a b =>
      ascends (a.get? root.primaryKey) (b.get? root.primaryKey) :=
  List.pairwise_mergeSort (fun a _ _ => ascends_trans (a.get? root.primaryKey) _ _)
    (fun a _ => ascends_total (a.get? root.primaryKey) _) _

theorem Store.ranked_perm (db : Store V) (root : Schema) (predicate : Option Predicate) :
    (db.ranked root predicate).Perm (db.roots root predicate) :=
  List.mergeSort_perm _ _

/-- Sorting the tuples sorts their root rows. -/
theorem Store.map_ordered_selectPage (page : PageRequest) (window : Option Window) :
    (db.ordered { selectPage root predicate page with window }).map (·.rowD root.table) =
      db.ranked root predicate := by
  have htuples : db.tuples { selectPage root predicate page with window } =
      db.found root predicate := by
    rw [← Store.tuples_selectPage root predicate page]
    rfl
  rw [Store.ranked, Store.roots, ← htuples]
  refine List.map_mergeSort ?_
  intro t _ u _
  simp only [rootAlias, Tuple.cell_eq_rowD]

/-- DISTINCT is left out only where nothing is repeated. -/
theorem Store.distinct_ranked (hrows : (db.rows root.table).Nodup) :
    (if !(joinsOf predicate).isEmpty then ((db.ranked root predicate).map Dict.entries).dedup
      else (db.ranked root predicate).map Dict.entries) =
        (db.ranked root predicate).dedup.map Dict.entries := by
  by_cases hjoins : joinsOf predicate = []
  · have hnodup : (db.ranked root predicate).Nodup :=
      (db.ranked_perm root predicate).nodup_iff.2 (hrows.sublist (Store.roots_sublist hjoins))
    rw [hjoins, hnodup.dedup]
    rfl
  · rw [if_pos (by simp [hjoins]), List.dedup_map_of_injective entries_injective]

/-- The page is cut from the root rows that are found, in the order of their keys and each once. -/
theorem Store.selected_selectPage (hrows : (db.rows root.table).Nodup) (page : PageRequest)
    (window : Option Window) :
    db.selected { selectPage root predicate page with window } =
      let rows := (db.ranked root predicate).dedup.map Dict.entries
      match window with
      | some w => (rows.drop w.offset).take w.limit
      | none => rows := by
  have hcells : (db.ordered { selectPage root predicate page with window }).map
      (fun t => [Projection.all (rootAlias root)].flatMap (·.cells t)) =
        (db.ranked root predicate).map Dict.entries := by
    rw [← Store.map_ordered_selectPage page window, List.map_map]
    refine List.map_congr_left ?_
    intro t _
    simp [Projection.cells_all, rootAlias]
  rw [← Store.distinct_ranked hrows, ← hcells]
  rfl

theorem Store.counted_selectCount (db : Store V) (root : Schema) (predicate : Option Predicate) :
    db.counted (selectCount root predicate) ⟨rootAlias root, root.primaryKey⟩ =
      ((db.roots root predicate).filterMap (·.get? root.primaryKey)).dedup.length := by
  unfold Store.counted Store.roots
  rw [Store.tuples_selectCount, List.filterMap_map]
  simp only [Tuple.cell_eq_rowD, rootAlias]
  rfl

/-! ### One result set -/

/-- The key of one row comes before the key of the other. -/
def Before (key : String) (a b : Row V) : Prop :=
  ∃ x y, a.get? key = some x ∧ b.get? key = some y ∧ x < y

theorem Keyed.before_of_ascends {key : String} {rows : List (Row V)} (h : Keyed key rows)
    {a b : Row V} (ha : a ∈ rows) (hb : b ∈ rows) (hle : ascends (a.get? key) (b.get? key))
    (hne : a ≠ b) : Before key a b := by
  obtain ⟨x, hx⟩ := Option.isSome_iff_exists.1 (h.present a ha)
  obtain ⟨y, hy⟩ := Option.isSome_iff_exists.1 (h.present b hb)
  rw [hx, hy] at hle
  refine ⟨x, y, hx, hy, lt_of_le_of_ne (of_decide_eq_true hle) ?_⟩
  intro heq
  exact hne (h.eq_of_get?_eq ha hb (by rw [hx, hy, heq]))

/-- **One result set.** Some list of rows is what the page is cut from and what the total counts. It
holds every row that meets the predicate once, and the keys ascend. -/
theorem page_and_total_agree (hroot : root.table ∉ aliases (joinsOf predicate))
    (hkey : Keyed root.primaryKey (db.rows root.table)) (page : PageRequest) :
    ∃ rows : List (Row V),
      db.answer { selectPage root predicate page with window := none } =
          .rows (rows.map Dict.entries) ∧
        db.answer (selectPage root predicate page) =
          .rows (((rows.drop page.offset).take page.limit).map Dict.entries) ∧
        db.answer (selectCount root predicate) = .number totalColumn rows.length ∧
        rows.Nodup ∧ rows.Pairwise (Before root.primaryKey) ∧
        ∀ row, row ∈ rows ↔
          row ∈ db.rows root.table ∧ ∀ p ∈ predicate, p.Meets db root.table row := by
  have hmem : ∀ row, row ∈ (db.ranked root predicate).dedup ↔ row ∈ db.roots root predicate := by
    intro row
    rw [List.mem_dedup, (db.ranked_perm root predicate).mem_iff]
  have htable : ∀ row ∈ (db.ranked root predicate).dedup, row ∈ db.rows root.table :=
    fun row hrow => ((Store.mem_roots hroot).1 ((hmem row).1 hrow)).1
  refine ⟨(db.ranked root predicate).dedup, ?_, ?_, ?_, List.nodup_dedup _, ?_, ?_⟩
  · exact congrArg Answer.rows (Store.selected_selectPage hkey.nodup page none)
  · rw [List.map_take, List.map_drop]
    exact congrArg Answer.rows
      (Store.selected_selectPage hkey.nodup page (some ⟨page.limit, page.offset⟩))
  · have hlength : db.counted (selectCount root predicate) ⟨rootAlias root, root.primaryKey⟩ =
        (db.ranked root predicate).dedup.length := by
      rw [Store.counted_selectCount, (db.ranked_perm root predicate).dedup.length_eq]
      exact hkey.length_dedup_filterMap fun row hrow => ((Store.mem_roots hroot).1 hrow).1
    exact congrArg (Answer.number totalColumn) hlength
  · have hsorted := (db.pairwise_ranked root predicate).sublist (List.dedup_sublist _)
    refine (hsorted.and (List.nodup_dedup _)).imp_of_mem ?_
    intro a b ha hb h
    exact hkey.before_of_ascends (htable a ha) (htable b hb) h.1 h.2
  · intro row
    rw [hmem row, Store.mem_roots hroot]

/-- Customers with an order of the first customer. -/
def ordersOfFirst : Predicate where
  condition := .test ⟨"j1_orders", "user_id"⟩ (.equal (.int 1))
  joins := [⟨"orders", "j1_orders", "users", "id", "user_id"⟩]

/-- The customer is found with either order, and returned and counted once. -/
theorem page_and_total_agree_two_orders :
    customers.table ∉ aliases (joinsOf (some ordersOfFirst)) ∧
      Keyed customers.primaryKey (shop.rows customers.table) ∧
      (shop.found customers (some ordersOfFirst)).length = 2 ∧
      ∃ rows : List (Row Int),
        shop.answer { selectPage customers (some ordersOfFirst) ⟨0, 20⟩ with window := none } =
            .rows (rows.map Dict.entries) ∧
          shop.answer (selectCount customers (some ordersOfFirst)) =
            .number totalColumn rows.length ∧ .ofList [("id", 1)] ∈ rows := by
  have hroot : customers.table ∉ aliases (joinsOf (some ordersOfFirst)) := by decide +kernel
  have hkey : Keyed customers.primaryKey (shop.rows customers.table) :=
    ⟨by decide +kernel, by decide +kernel⟩
  have hfound : ∃ t ∈ shop.found customers (some ordersOfFirst),
      t.row? (rootAlias customers) = some (.ofList [("id", 1)]) := by decide +kernel
  refine ⟨hroot, hkey, by decide +kernel, ?_⟩
  obtain ⟨rows, hpage, -, htotal, -, -, hmem⟩ := page_and_total_agree hroot hkey ⟨0, 20⟩
  exact ⟨rows, hpage, htotal, (hmem _).2 ((Store.exists_mem_found_iff hroot).1 hfound)⟩

end QuerySieve.Sql
