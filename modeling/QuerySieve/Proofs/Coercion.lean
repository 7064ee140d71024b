import Mathlib.Data.List.Forall2
import QuerySieve.Compiler

/-!
# QuerySieve.Proofs.Coercion

**Coercion as a relation.** `FilterExpression.comparison` looks at the operator, at the type of the
leaf and at the pieces of the value, and refuses in many ways. `FilterExpression.Tests` says what is
not refused, one rule for each operator, and `comparison_eq_ok_iff_tests` says that the two agree.
-/

namespace QuerySieve

/-- The operator of a test. -/
def Comparison.operator {α : Type} : Comparison α → Operator
  | equal _ => .eq
  | like _ => .like
  | isIn _ => .isIn
  | between .. => .between

namespace FilterExpression

variable {e : FilterExpression} {strict : Bool} {type : ValueType} {comparison : Comparison Value}

/-- The pieces of a text are read as these values, one by one. -/
def Coerces (strict : Bool) (type : ValueType) : List String → List Value → Prop :=
  List.Forall₂ fun piece value => type.coerce strict piece = .ok value

theorem coerceAll_cons_eq_ok_iff {piece : String} {pieces : List String} {values : List Value} :
    e.coerceAll strict type (piece :: pieces) = .ok values ↔
      ∃ value rest, type.coerce strict piece = .ok value ∧
        e.coerceAll strict type pieces = .ok rest ∧ values = value :: rest := by
  rw [coerceAll]
  cases type.coerce strict piece with
  | error expected => simp
  | ok value =>
    cases e.coerceAll strict type pieces with
    | error error => simp [Except.map]
    | ok rest => simp [Except.map, eq_comm]

theorem coerceAll_eq_ok_iff {pieces : List String} {values : List Value} :
    e.coerceAll strict type pieces = .ok values ↔ Coerces strict type pieces values := by
  unfold Coerces
  induction pieces generalizing values with
  | nil => cases values <;> simp [coerceAll]
  | cons piece pieces ih => simp only [coerceAll_cons_eq_ok_iff, List.forall₂_cons_left_iff, ih]

/-- The filter makes this test of a leaf of the type. -/
inductive Tests (e : FilterExpression) (strict : Bool) (type : ValueType) : Comparison Value → Prop
  /-- All pieces are read, and the first is compared with. -/
  | equal {value : Value} {values : List Value} (hoperator : e.operator = .eq)
      (hpieces : Coerces strict type e.pieces (value :: values)) :
      Tests e strict type (.equal value)
  /-- The whole value is a part of the text. -/
  | like (hoperator : e.operator = .like) (htype : type = .string) :
      Tests e strict type (.like ("%" ++ e.raw ++ "%"))
  /-- Each piece is one of the values. -/
  | isIn {values : List Value} (hoperator : e.operator = .isIn)
      (hpieces : Coerces strict type e.pieces values) : Tests e strict type (.isIn values)
  /-- The pieces are the bounds. -/
  | between {lower upper : Int} (hoperator : e.operator = .between) (htype : type = .long)
      (hpieces : Coerces strict type e.pieces [.long lower, .long upper]) :
      Tests e strict type (.between lower upper)

theorem tests_of_comparison_eq_ok (h : e.comparison strict type = .ok comparison) :
    e.Tests strict type comparison := by
  unfold FilterExpression.comparison at h
  cases hoperator : e.operator with
  | like =>
    simp only [hoperator] at h
    split at h
    next htype =>
      rw [← Except.ok.inj h]
      exact .like hoperator htype
    next => cases h
  | between =>
    simp only [hoperator] at h
    split at h
    next htype =>
      split at h
      next hpieces =>
        rw [← Except.ok.inj h]
        exact .between hoperator htype (coerceAll_eq_ok_iff.1 hpieces)
      next => cases h
      next => cases h
    next => cases h
  | isIn =>
    simp only [hoperator] at h
    cases hpieces : e.coerceAll strict type e.pieces with
    | error error => simp [hpieces, Except.map] at h
    | ok values =>
      obtain rfl : .isIn values = comparison := by simpa [hpieces, Except.map] using h
      exact .isIn hoperator (coerceAll_eq_ok_iff.1 hpieces)
  | eq =>
    simp only [hoperator] at h
    split at h
    next hpieces =>
      rw [← Except.ok.inj h]
      exact .equal hoperator (coerceAll_eq_ok_iff.1 hpieces)
    next => cases h
    next => cases h

theorem comparison_of_tests (h : e.Tests strict type comparison) :
    e.comparison strict type = .ok comparison := by
  unfold FilterExpression.comparison
  cases h with
  | equal hoperator hpieces => simp only [hoperator, coerceAll_eq_ok_iff.2 hpieces]
  | like hoperator htype => simp only [hoperator, htype, if_true]
  | isIn hoperator hpieces => simp only [hoperator, coerceAll_eq_ok_iff.2 hpieces, Except.map]
  | between hoperator htype hpieces =>
    simp only [hoperator, if_pos htype, coerceAll_eq_ok_iff.2 hpieces]

theorem comparison_eq_ok_iff_tests :
    e.comparison strict type = .ok comparison ↔ e.Tests strict type comparison :=
  ⟨tests_of_comparison_eq_ok, comparison_of_tests⟩

namespace Tests

theorem operator_eq (h : e.Tests strict type comparison) : comparison.operator = e.operator := by
  cases h with
  | equal hoperator _ => exact hoperator.symm
  | like hoperator _ => exact hoperator.symm
  | isIn hoperator _ => exact hoperator.symm
  | between hoperator _ _ => exact hoperator.symm

/-- A list has as many values as the filter has pieces. -/
theorem length_isIn {values : List Value} (h : e.Tests strict type (.isIn values)) :
    values.length = e.pieces.length := by
  cases h with
  | isIn _ hpieces => exact hpieces.length_eq.symm

/-- No filter tests for an empty list, because even the empty text is one piece. -/
theorem ne_isIn_nil (h : e.Tests strict type comparison) : comparison ≠ .isIn [] := by
  rintro rfl
  exact e.pieces_ne_nil (List.eq_nil_of_length_eq_zero h.length_isIn.symm)

end Tests

end FilterExpression

end QuerySieve
