import QuerySieve.Sql.Dialect
import QuerySieve.Sql.Query

/-!
# QuerySieve.Proofs.Sql.Layout

**A statement's text has no room for values.**

A fragment is a text or a place for a value, and the *layout* of a statement is what is left when
the values are taken out: texts and holes. Its text with placeholders is the layout with the holes
numbered (`Statement.text_eq_fill`), and there are as many holes as values
(`Statement.count_layout`). So two things are left to say:

* blank values make the same layout (`Statement.layout_blank`), whatever the values were;
* the values are those of the tests from left to right and those of the window
  (`values_selectPage`, `values_selectCount`), unless a list is empty, where two constants stand in
  for the test.
-/

namespace QuerySieve

/-- The same test of blank values. A list keeps its length. -/
def Comparison.blank {α : Type} (value : α) : Comparison α → Comparison α
  | equal _ => equal value
  | like _ => like ""
  | isIn values => isIn (List.replicate values.length value)
  | between _ _ => between 0 0

theorem Comparison.blank_map {α β : Type} (f : α → β) (value : α) (comparison : Comparison α) :
    (comparison.map f).blank (f value) = (comparison.blank value).map f := by
  cases comparison <;> simp [map, blank]

/-- The values that a test binds. -/
def Comparison.params : Comparison Sql.Param → List Sql.Param
  | equal p => [p]
  | like pattern => [.text pattern]
  | isIn ps => ps
  | between lower upper => [.int lower, .int upper]

namespace Sql

/-! ### Layouts -/

/-- A fragment's text, none for a value's place. -/
def Fragment.text? : Fragment → Option String
  | text s => some s
  | param _ => none

/-- Texts and holes, the next of which has this number. -/
def Dialect.fill (d : Dialect) : Nat → List (Option String) → String
  | _, [] => ""
  | number, some s :: rest => s ++ d.fill number rest
  | number, none :: rest => d.placeholder number ++ d.fill (number + 1) rest

/-- A statement without its values. -/
def Statement.layout (d : Dialect) (s : Statement) : List (Option String) :=
  (s.fragments d).map Fragment.text?

theorem Dialect.placeholdersFrom_eq_fill (d : Dialect) (number : Nat) (fragments : List Fragment) :
    d.placeholdersFrom number fragments = d.fill number (fragments.map Fragment.text?) := by
  induction fragments generalizing number with
  | nil => rfl
  | cons fragment rest ih =>
    cases fragment with
    | text s => exact congrArg (s ++ ·) (ih number)
    | param p => exact congrArg (d.placeholder number ++ ·) (ih (number + 1))

theorem Statement.text_eq_fill (d : Dialect) (s : Statement) : s.text d = d.fill 1 (s.layout d) :=
  d.placeholdersFrom_eq_fill 1 (s.fragments d)

theorem Statement.count_layout (d : Dialect) (s : Statement) :
    (s.layout d).count none = (s.values d).length := by
  unfold layout values
  induction s.fragments d with
  | nil => rfl
  | cons fragment rest ih =>
    cases fragment with
    | text s => simpa [Fragment.text?, Fragment.values] using ih
    | param p => simpa [Fragment.text?, Fragment.values] using ih

/-! ### Blank values -/

/-- The condition with blank values. -/
def Condition.blank : Condition → Condition
  | test column comparison => test column (comparison.blank (.text ""))
  | and left right => and left.blank right.blank

/-- The predicate with blank values. -/
def Predicate.blank (p : Predicate) : Predicate := { p with condition := p.condition.blank }

/-- The statement with blank values; its window is its own. -/
def Statement.blank (s : Statement) : Statement :=
  { s with condition := s.condition.map Condition.blank }

theorem layout_paramList {ps qs : List Param} (h : ps.length = qs.length) :
    (paramList ps).map Fragment.text? = (paramList qs).map Fragment.text? := by
  induction ps generalizing qs with
  | nil =>
    obtain rfl : qs = [] := List.eq_nil_of_length_eq_zero h.symm
    rfl
  | cons p ps ih =>
    obtain ⟨q, qs, rfl⟩ := List.exists_cons_of_length_pos (by rw [← h]; simp : 0 < qs.length)
    have hrest := ih (Nat.succ.inj h)
    cases ps with
    | nil =>
      obtain rfl : qs = [] := List.eq_nil_of_length_eq_zero (Nat.succ.inj h).symm
      rfl
    | cons p' ps =>
      obtain ⟨q', qs, rfl⟩ :=
        List.exists_cons_of_length_pos (by rw [← Nat.succ.inj h]; simp : 0 < qs.length)
      exact congrArg (none :: some ", " :: ·) hrest

theorem testFragments_isIn_cons (d : Dialect) (column : Column) (p : Param) (ps : List Param) :
    testFragments d column (.isIn (p :: ps)) =
      .text (d.column column ++ " IN (") :: (paramList (p :: ps) ++ [.text ")"]) := rfl

theorem layout_testFragments_blank (d : Dialect) (column : Column) (comparison : Comparison Param) :
    (testFragments d column (comparison.blank (.text ""))).map Fragment.text? =
      (testFragments d column comparison).map Fragment.text? := by
  cases comparison with
  | equal _ => rfl
  | like _ => rfl
  | between _ _ => rfl
  | isIn ps =>
    cases ps with
    | nil => rfl
    | cons p ps =>
      have hlist :=
        @layout_paramList (List.replicate (p :: ps).length (.text "")) (p :: ps) (by simp)
      rw [Comparison.blank, List.length_cons, List.replicate_succ, testFragments_isIn_cons,
        testFragments_isIn_cons]
      rw [List.length_cons, List.replicate_succ] at hlist
      simp only [List.map_cons, List.map_append, hlist]

/-- Blanking neither makes nor unmakes a range. -/
@[simp] theorem Condition.isRange_blank (c : Condition) : c.blank.isRange = c.isRange := by
  cases c with
  | test column comparison => cases comparison <;> rfl
  | and left right => rfl

@[simp] theorem Condition.needsParenthesesOnRight_blank (c : Condition) :
    c.blank.needsParenthesesOnRight = c.needsParenthesesOnRight := by
  cases c with
  | test column comparison => exact isRange_blank (test column comparison)
  | and left right => rfl

theorem Condition.layout_blank (d : Dialect) (c : Condition) :
    (c.blank.fragments d).map Fragment.text? = (c.fragments d).map Fragment.text? := by
  induction c with
  | test column comparison => exact layout_testFragments_blank d column comparison
  | and left right ihl ihr =>
    have hparentheses : ∀ {fs gs : List Fragment}, fs.map Fragment.text? = gs.map Fragment.text? →
        (parenthesized fs).map Fragment.text? = (parenthesized gs).map Fragment.text? := by
      intro fs gs h
      simp [parenthesized, h]
    simp only [blank, fragments, isRange_blank, needsParenthesesOnRight_blank, List.map_append,
      List.map_cons]
    congr 1
    · split
      · exact hparentheses ihl
      · exact ihl
    · congr 1
      split
      · exact hparentheses ihr
      · exact ihr

theorem Statement.layout_blank (d : Dialect) (s : Statement) :
    s.blank.layout d = s.layout d := by
  unfold layout fragments
  cases hcondition : s.condition with
  | none => simp [blank, hcondition, head]
  | some c => simp [blank, hcondition, head, c.layout_blank]

theorem Statement.text_eq_of_blank_eq (d : Dialect) {a b : Statement} (h : a.blank = b.blank) :
    a.text d = b.text d := by
  rw [text_eq_fill, text_eq_fill, ← a.layout_blank d, ← b.layout_blank d, h]

theorem blank_selectPage (root : Schema) (predicate : Option Predicate) (page : PageRequest) :
    (selectPage root predicate page).blank =
      selectPage root (predicate.map Predicate.blank) page := by
  cases predicate <;> rfl

theorem blank_selectCount (root : Schema) (predicate : Option Predicate) :
    (selectCount root predicate).blank = selectCount root (predicate.map Predicate.blank) := by
  cases predicate <;> rfl

/-! ### Values -/

/-- A statement has places for exactly these values, in this order: its text is its layout with the
holes numbered from 1 on, and there are as many holes as values. -/
structure Statement.Binds (d : Dialect) (s : Statement) (bound : List Param) : Prop where
  text : s.text d = d.fill 1 (s.layout d)
  holes : (s.layout d).count none = bound.length
  values : s.values d = bound

theorem Statement.binds_of_values {d : Dialect} {s : Statement} {bound : List Param}
    (h : s.values d = bound) : s.Binds d bound :=
  ⟨s.text_eq_fill d, h ▸ s.count_layout d, h⟩

@[simp] theorem Fragment.values_append (fs gs : List Fragment) :
    Fragment.values (fs ++ gs) = Fragment.values fs ++ Fragment.values gs := List.filterMap_append

@[simp] theorem Fragment.values_text_cons (s : String) (fs : List Fragment) :
    Fragment.values (.text s :: fs) = Fragment.values fs := rfl

@[simp] theorem Fragment.values_param_cons (p : Param) (fs : List Fragment) :
    Fragment.values (.param p :: fs) = p :: Fragment.values fs := rfl

@[simp] theorem Fragment.values_nil : Fragment.values [] = [] := rfl

theorem values_paramList (ps : List Param) : Fragment.values (paramList ps) = ps := by
  induction ps with
  | nil => rfl
  | cons p ps ih =>
    cases ps with
    | nil => rfl
    | cons q ps => exact congrArg (p :: ·) ih

theorem values_testFragments (d : Dialect) (column : Column) {comparison : Comparison Param}
    (h : comparison ≠ .isIn []) :
    Fragment.values (testFragments d column comparison) = comparison.params := by
  cases comparison with
  | equal _ => rfl
  | like _ => rfl
  | between _ _ => rfl
  | isIn ps =>
    cases ps with
    | nil => exact absurd rfl h
    | cons p ps =>
      rw [testFragments_isIn_cons, Fragment.values_text_cons, Fragment.values_append,
        values_paramList]
      exact List.append_nil _

theorem Condition.values_fragments (d : Dialect) {c : Condition}
    (h : ∀ leaf ∈ c.leaves, leaf.2 ≠ .isIn []) :
    Fragment.values (c.fragments d) = c.leaves.flatMap fun leaf => leaf.2.params := by
  induction c with
  | test column comparison =>
    rw [fragments, values_testFragments d column (h _ (List.mem_singleton_self _))]
    simp [leaves]
  | and left right ihl ihr =>
    have hparentheses : ∀ fs, Fragment.values (parenthesized fs) = Fragment.values fs := by
      simp [parenthesized]
    have hl := ihl fun leaf hleaf => h leaf (List.mem_append_left _ hleaf)
    have hr := ihr fun leaf hleaf => h leaf (List.mem_append_right _ hleaf)
    rw [fragments, leaves, Fragment.values_append, Fragment.values_text_cons, List.flatMap_append]
    congr 1
    · split <;> simp [hparentheses, hl]
    · split <;> simp [hparentheses, hr]

/-- The tests of a predicate from left to right; none without a predicate. -/
def testsOf (predicate : Option Predicate) : List (Column × Comparison Param) :=
  (predicate.map fun p => p.condition.leaves).getD []

variable {root : Schema} {predicate : Option Predicate}

/-- A page binds the values of its tests, and the limit and the offset after them. -/
theorem values_selectPage (d : Dialect) (page : PageRequest)
    (h : ∀ leaf ∈ testsOf predicate, leaf.2 ≠ .isIn []) :
    (selectPage root predicate page).values d =
      ((testsOf predicate).flatMap fun leaf => leaf.2.params) ++
        [.int page.limit, .int page.offset] := by
  cases predicate with
  | none => rfl
  | some p =>
    have hcondition : Fragment.values (p.condition.fragments d) =
        (testsOf (some p)).flatMap fun leaf => leaf.2.params := Condition.values_fragments d h
    simp [Statement.values, Statement.fragments, selectPage, hcondition]

theorem values_selectCount (d : Dialect) (h : ∀ leaf ∈ testsOf predicate, leaf.2 ≠ .isIn []) :
    (selectCount root predicate).values d =
      (testsOf predicate).flatMap fun leaf => leaf.2.params := by
  cases predicate with
  | none => rfl
  | some p =>
    have hcondition : Fragment.values (p.condition.fragments d) =
        (testsOf (some p)).flatMap fun leaf => leaf.2.params := Condition.values_fragments d h
    simp [Statement.values, Statement.fragments, selectCount, hcondition]

end Sql

end QuerySieve
