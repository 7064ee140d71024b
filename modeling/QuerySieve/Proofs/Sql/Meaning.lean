import Mathlib.Data.List.Dedup
import Mathlib.Order.Lattice
import QuerySieve.Sql.Query

/-!
# QuerySieve.Proofs.Sql.Meaning

The **textbook meaning** of statements: nested loops over the rows of their tables.

A `Statement` is data and says nothing about answers. What a database answers is defined here, over
tables with any finite lists of rows and for any truth of `=`, `LIKE`, `IN` and `BETWEEN`:

* `Store.extend` is the loop over the joins, one join inside the other;
* `Store.tuples` is FROM, INNER JOIN and WHERE, with every tuple as often as it is found;
* `Store.answer` adds the selected expressions, DISTINCT, ORDER BY and the window.

Design points:

* A null is a column *without* a value. Rows with the same cells are then equal, and DISTINCT is
  equality of what is selected.
* Names are looked up from the latest join backwards. A name that is joined twice hides the earlier
  row, so every statement about a root row needs its name not to be joined again.
-/

namespace QuerySieve.Sql

variable {V : Type}

/-- A row gives values to columns. A column without a value is null. -/
abbrev Row (V : Type) := Dict V

/-- The tables of a database, and when a test holds there. -/
structure Store (V : Type) where
  rows : String → List (Row V)
  /-- Does `=` hold between two cells? -/
  equal : Option V → Option V → Bool
  /-- Does a cell pass a test against constants? -/
  passes : Option V → Comparison Param → Bool

/-- One row of every table joined so far, under the name of the table there, the latest first. -/
abbrev Tuple (V : Type) := List (String × Row V)

namespace Tuple

/-- The row under a name. -/
def row? (t : Tuple V) (name : String) : Option (Row V) := Entries.get? name t

/-- The cell of a column; null also if nothing is known under its qualifier. -/
def cell (t : Tuple V) (c : Column) : Option V := (t.row? c.qualifier).bind (·.get? c.name)

@[simp] theorem row?_cons_self (name : String) (r : Row V) (t : Tuple V) :
    row? ((name, r) :: t) name = some r := by
  simp [row?, Entries.get?]

theorem row?_cons_of_ne {name other : String} (r : Row V) (t : Tuple V) (h : other ≠ name) :
    row? ((name, r) :: t) other = row? t other := by
  simp [row?, Entries.get?, Ne.symm h]

theorem cell_of_row? {t : Tuple V} {name : String} {r : Row V} (h : t.row? name = some r)
    (column : String) : t.cell ⟨name, column⟩ = r.get? column := by
  simp [cell, h]

end Tuple

/-- The name under which a joined table is known. -/
def Join.name (j : Join) : String := j.tableAlias?.getD j.table

@[simp] theorem JoinSpec.name_toJoin (j : JoinSpec) : j.toJoin.name = j.tableAlias := rfl

/-- The condition holds of a tuple. -/
def Condition.holds (db : Store V) (t : Tuple V) : Condition → Bool
  | test column comparison => db.passes (t.cell column) comparison
  | and left right => left.holds db t && right.holds db t

/-- A condition reads a tuple at the qualifiers of its columns only. -/
theorem Condition.holds_congr {db : Store V} {t u : Tuple V} {c : Condition}
    (h : ∀ leaf ∈ c.leaves, t.row? leaf.1.qualifier = u.row? leaf.1.qualifier) :
    c.holds db t = c.holds db u := by
  induction c with
  | test column comparison =>
    have hrow := h (column, comparison) (by simp [leaves])
    simp only [holds, Tuple.cell, hrow]
  | and left right ihl ihr =>
    have hl := ihl fun leaf hm => h leaf (List.mem_append_left _ hm)
    have hr := ihr fun leaf hm => h leaf (List.mem_append_right _ hm)
    simp only [holds, hl, hr]

namespace Store

/-- The equality that a join is on holds of a tuple. -/
def meets (db : Store V) (j : Join) (t : Tuple V) : Bool :=
  db.equal (t.cell j.left) (t.cell j.right)

/-- All ways to go on from a tuple with a row of every table to join. -/
def extend (db : Store V) : List Join → Tuple V → List (Tuple V)
  | [], t => [t]
  | j :: js, t =>
    (((db.rows j.table).map fun r => (j.name, r) :: t).filter (db.meets j)).flatMap (db.extend js)

/-- The tuples that FROM, INNER JOIN and WHERE leave. -/
def tuples (db : Store V) (s : Statement) : List (Tuple V) :=
  (db.rows s.table).flatMap fun r =>
    (db.extend s.joins [(s.table, r)]).filter fun t => s.condition.all (·.holds db t)

/-! ### Joining -/

@[simp] theorem extend_nil (db : Store V) (t : Tuple V) : db.extend [] t = [t] := rfl

theorem mem_extend_cons {db : Store V} {j : Join} {js : List Join} {t u : Tuple V} :
    u ∈ db.extend (j :: js) t ↔
      ∃ r ∈ db.rows j.table,
        db.meets j ((j.name, r) :: t) ∧ u ∈ db.extend js ((j.name, r) :: t) := by
  rw [extend, List.mem_flatMap]
  constructor
  · intro h
    obtain ⟨mid, hmid, hu⟩ := h
    obtain ⟨hmem, hmeets⟩ := List.mem_filter.1 hmid
    obtain ⟨r, hr, rfl⟩ := List.mem_map.1 hmem
    exact ⟨r, hr, hmeets, hu⟩
  · intro h
    obtain ⟨r, hr, hmeets, hu⟩ := h
    exact ⟨_, List.mem_filter.2 ⟨List.mem_map.2 ⟨r, hr, rfl⟩, hmeets⟩, hu⟩

theorem extend_append (db : Store V) (js ks : List Join) (t : Tuple V) :
    db.extend (js ++ ks) t = (db.extend js t).flatMap (db.extend ks) := by
  induction js generalizing t with
  | nil => simp
  | cons j js ih =>
    rw [List.cons_append, extend, extend, List.flatMap_assoc]
    exact congrArg (List.flatMap · _) (funext ih)

theorem mem_extend_append {db : Store V} {js ks : List Join} {t u : Tuple V} :
    u ∈ db.extend (js ++ ks) t ↔ ∃ mid ∈ db.extend js t, u ∈ db.extend ks mid := by
  rw [extend_append, List.mem_flatMap]

/-- Joining leaves the row of a name that is not joined. -/
theorem row?_of_mem_extend {db : Store V} {name : String} :
    ∀ {js : List Join} {t u : Tuple V}, name ∉ js.map Join.name → u ∈ db.extend js t →
      u.row? name = t.row? name := by
  intro js
  induction js with
  | nil =>
    intro t u _ hu
    rw [List.mem_singleton.1 hu]
  | cons j js ih =>
    intro t u hname hu
    simp only [List.map_cons, List.mem_cons, not_or] at hname
    obtain ⟨r, -, -, hu⟩ := mem_extend_cons.1 hu
    rw [ih hname.2 hu, Tuple.row?_cons_of_ne r t hname.1]

end Store

/-! ### Answers -/

/-- The cells that an expression selects from a tuple, under their names; nulls are left out. -/
def Projection.cells (t : Tuple V) : Projection → List (String × V)
  | all table => ((t.row? table).map Dict.entries).getD []
  | named column name => (t.cell column).toList.map fun value => (name, value)
  | countDistinct .. => []

/-- The ascending order of cells, nulls first. -/
def ascends [LinearOrder V] : Option V → Option V → Bool
  | none, _ => true
  | some _, none => false
  | some a, some b => a ≤ b

/-- What a statement is answered with: rows, or one number under a name. -/
inductive Answer (V : Type)
  | rows (rows : List (List (String × V)))
  | number (name : String) (n : Nat)

namespace Store

variable [LinearOrder V]

/-- The tuples in the order that the statement asks for. -/
def ordered (db : Store V) (s : Statement) : List (Tuple V) :=
  match s.order with
  | some c => (db.tuples s).mergeSort fun t u => ascends (t.cell c) (u.cell c)
  | none => db.tuples s

/-- The rows that the statement returns. -/
def selected (db : Store V) (s : Statement) : List (List (String × V)) :=
  let rows := (db.ordered s).map fun t => s.projections.flatMap (·.cells t)
  let rows := if s.distinct then rows.dedup else rows
  match s.window with
  | some w => (rows.drop w.offset).take w.limit
  | none => rows

/-- How many values there are in a column, nulls apart and equal values once. -/
def counted (db : Store V) (s : Statement) (c : Column) : Nat :=
  ((db.tuples s).filterMap (·.cell c)).dedup.length

/-- The answer to a statement. A count stands alone. -/
def answer (db : Store V) (s : Statement) : Answer V :=
  match s.projections with
  | [.countDistinct c name] => .number name (db.counted s c)
  | _ => .rows (db.selected s)

end Store

/-! ### A small database -/

/-- Customers, each with any number of orders. -/
def customers : Schema :=
  (Schema.new "user" "users").scalar "id" .long |>.toMany "orders" "order" "id" "user_id"

/-- Orders with their totals, each of one customer. -/
def orders : Schema :=
  (Schema.new "order" "orders").scalar "id" .long |>.scalar "total" .long
    |>.toOne "user" "user" "user_id" "id"

/-- A customer with two orders, and one without any. -/
def shop : Store Int where
  rows table :=
    if table = "users" then [.ofList [("id", 1)], .ofList [("id", 2)]]
    else if table = "orders" then
      [.ofList [("id", 10), ("user_id", 1), ("total", 25)],
        .ofList [("id", 11), ("user_id", 1), ("total", 5)]]
    else []
  equal a b := a.isSome && a == b
  passes cell comparison := cell.any fun n => comparison = .equal (.int n)

end QuerySieve.Sql
