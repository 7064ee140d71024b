import Mathlib.Algebra.GroupWithZero.Nat
import QuerySieve.Proofs.Coercion
import QuerySieve.Proofs.Sql.Rendering

/-!
# QuerySieve.Proofs.Typing

**The compiler accepts exactly the well-typed filters, all or nothing.**

`Compiler.Typed` says of a filter, without compiling it, that its path leads to a scalar field and
that its operator and its pieces suit the type of that field; `Compiler.Refuses` says with which
error a filter that is not well-typed is refused, one rule for each cause. The check of one filter
decides between the two (`check_eq_ok_iff_typed`, `check_eq_error_iff`), so a list of filters
succeeds if all are well-typed and otherwise fails with the error of the first that is not
(`compileAll_eq_error_iff`). That equality might lack a value to compare with is no cause: a text
always has a first piece.
-/

namespace QuerySieve

/-- A relation holds along some list exactly if each element is related to something. -/
theorem exists_forall₂_iff {α β : Type} {R : α → β → Prop} {xs : List α} :
    (∃ ys, List.Forall₂ R xs ys) ↔ ∀ x ∈ xs, ∃ y, R x y := by
  induction xs with
  | nil => simp
  | cons x xs ih =>
    rw [List.forall_mem_cons, ← ih]
    simp only [List.forall₂_cons_left_iff]
    constructor
    · rintro ⟨_, y, ys, hy, hys, -⟩
      exact ⟨⟨y, hy⟩, ys, hys⟩
    · rintro ⟨⟨y, hy⟩, ys, hys⟩
      exact ⟨_, y, ys, hy, hys, rfl⟩

/-! ### Pieces -/

/-- The text denotes a value of the type. -/
def ValueType.Accepts (strict : Bool) (piece : String) : ValueType → Prop
  | long => ∃ n, Text.int64? (Text.trim piece) = some n
  | boolean =>
    strict → Text.lower (Text.trim piece) = "true" ∨ Text.lower (Text.trim piece) = "false"
  | string | other => True

namespace ValueType

variable {strict : Bool} {type : ValueType} {piece : String}

theorem exists_coerce_eq_ok_iff :
    (∃ value, type.coerce strict piece = .ok value) ↔ type.Accepts strict piece := by
  cases type with
  | string => simp [coerce, Accepts]
  | other => simp [coerce, Accepts]
  | long => cases h : Text.int64? (Text.trim piece) <;> simp [coerce, Accepts, h]
  | boolean =>
    cases strict with
    | false => simp [coerce, Accepts]
    | true =>
      by_cases htrue : Text.lower (Text.trim piece) = "true"
      · simp [coerce, Accepts, htrue]
      · by_cases hfalse : Text.lower (Text.trim piece) = "false" <;>
          simp [coerce, Accepts, htrue, hfalse]

/-- An integer or a boolean is expected, never just any value. -/
theorem expected_of_coerce_eq_error {expected : Expectation}
    (h : type.coerce strict piece = .error expected) :
    expected = .integer ∨ expected = .boolean := by
  cases type with
  | string => simp [coerce] at h
  | other => simp [coerce] at h
  | long =>
    cases hn : Text.int64? (Text.trim piece) with
    | none => exact .inl (by simpa [coerce, hn, eq_comm] using h)
    | some n => simp [coerce, hn] at h
  | boolean =>
    simp only [coerce] at h
    split at h
    · split at h
      · cases h
      · split at h
        · cases h
        · exact .inr (Except.error.inj h).symm
    · cases h

theorem eq_long_of_coerce_eq_ok {value : Value}
    (h : ValueType.long.coerce strict piece = .ok value) : ∃ n, value = .long n := by
  cases hn : Text.int64? (Text.trim piece) with
  | none => simp [coerce, hn] at h
  | some n => exact ⟨n, by simpa [coerce, hn, eq_comm] using h⟩

end ValueType

namespace FilterExpression

variable {e : FilterExpression} {strict : Bool} {type : ValueType} {error : FilterError}

/-! ### The operator and the pieces -/

/-- The filter can be applied to a leaf of the type: patterns are for text, ranges for integers, and
all pieces are read, except for a pattern, which is not cut into pieces. -/
structure Fits (e : FilterExpression) (strict : Bool) (type : ValueType) : Prop where
  pattern : e.operator = .like → type = .string
  range : e.operator = .between → type = .long ∧ e.pieces.length = 2
  pieces : e.operator ≠ .like → ∀ piece ∈ e.pieces, type.Accepts strict piece

theorem exists_coerces_iff {pieces : List String} :
    (∃ values, Coerces strict type pieces values) ↔
      ∀ piece ∈ pieces, type.Accepts strict piece := by
  simp only [Coerces, exists_forall₂_iff, ValueType.exists_coerce_eq_ok_iff]

/-- A filter makes a test exactly of the leaves that it can be applied to. -/
theorem exists_tests_iff_fits :
    (∃ comparison, e.Tests strict type comparison) ↔ e.Fits strict type := by
  constructor
  · rintro ⟨comparison, h⟩
    cases h with
    | equal hoperator hpieces =>
      exact ⟨by simp [hoperator], by simp [hoperator], fun _ => exists_coerces_iff.1 ⟨_, hpieces⟩⟩
    | like hoperator htype =>
      exact ⟨fun _ => htype, by simp [hoperator], fun h => absurd hoperator h⟩
    | isIn hoperator hpieces =>
      exact ⟨by simp [hoperator], by simp [hoperator], fun _ => exists_coerces_iff.1 ⟨_, hpieces⟩⟩
    | between hoperator htype hpieces =>
      exact ⟨by simp [hoperator], fun _ => ⟨htype, hpieces.length_eq⟩,
        fun _ => exists_coerces_iff.1 ⟨_, hpieces⟩⟩
  · intro h
    cases hoperator : e.operator with
    | like => exact ⟨_, .like hoperator (h.pattern hoperator)⟩
    | isIn =>
      obtain ⟨values, hvalues⟩ := exists_coerces_iff.2 (h.pieces (by simp [hoperator]))
      exact ⟨_, .isIn hoperator hvalues⟩
    | eq =>
      obtain ⟨values, hvalues⟩ := exists_coerces_iff.2 (h.pieces (by simp [hoperator]))
      cases values with
      | nil => exact absurd (List.eq_nil_of_length_eq_zero hvalues.length_eq) e.pieces_ne_nil
      | cons value values => exact ⟨_, .equal hoperator hvalues⟩
    | between =>
      obtain ⟨values, hvalues⟩ := exists_coerces_iff.2 (h.pieces (by simp [hoperator]))
      obtain ⟨rfl, hlength⟩ := h.range hoperator
      obtain ⟨lower, upper, rfl⟩ := List.length_eq_two.1 (hvalues.length_eq.symm.trans hlength)
      -- both pieces are read as integers, since that is what the type reads
      obtain ⟨_, _, hlower, hrest, -⟩ := List.forall₂_cons_right_iff.1 hvalues
      obtain ⟨_, _, hupper, -, -⟩ := List.forall₂_cons_right_iff.1 hrest
      obtain ⟨m, rfl⟩ := ValueType.eq_long_of_coerce_eq_ok hlower
      obtain ⟨n, rfl⟩ := ValueType.eq_long_of_coerce_eq_ok hupper
      exact ⟨_, .between hoperator rfl hvalues⟩

/-! ### Why a filter does not suit a leaf -/

/-- The error of a filter that cannot be applied to a leaf of the type. The operator is looked at
first, then the pieces are read from the left, and last the bounds of a range are counted. -/
inductive Unfit (e : FilterExpression) (strict : Bool) (type : ValueType) : FilterError → Prop
  /-- A pattern for a field that is no text. -/
  | pattern (hoperator : e.operator = .like) (htype : type ≠ .string) :
      Unfit e strict type (.unsupported e.field .like .patternNeedsText)
  /-- A range for a field that is no integer. -/
  | range (hoperator : e.operator = .between) (htype : type ≠ .long) :
      Unfit e strict type (.unsupported e.field .between .rangeNeedsIntegers)
  /-- The first piece that does not denote a value of the type. -/
  | piece {before after : List String} {piece : String} {expected : Expectation}
      (hoperator : e.operator ≠ .like) (hrange : e.operator = .between → type = .long)
      (hpieces : e.pieces = before ++ piece :: after)
      (hbefore : ∀ other ∈ before, type.Accepts strict other)
      (hpiece : type.coerce strict piece = .error expected) :
      Unfit e strict type (.badValue e.field piece expected)
  /-- A range that has not exactly two bounds. -/
  | count (hoperator : e.operator = .between) (htype : type = .long)
      (hpieces : ∀ piece ∈ e.pieces, type.Accepts strict piece) (hlength : e.pieces.length ≠ 2) :
      Unfit e strict type (.badValue e.field e.raw .twoIntegers)

theorem coerceAll_eq_mapM (pieces : List String) :
    e.coerceAll strict type pieces =
      pieces.mapM fun piece => (type.coerce strict piece).mapError (.badValue e.field piece) := by
  induction pieces with
  | nil => rfl
  | cons piece pieces ih =>
    rw [coerceAll, List.mapM_cons, ih]
    cases type.coerce strict piece with
    | error expected => rfl
    | ok value => rfl

theorem coerceAll_eq_error_iff {pieces : List String} :
    e.coerceAll strict type pieces = .error error ↔ ∃ before piece after expected,
      pieces = before ++ piece :: after ∧ (∀ other ∈ before, type.Accepts strict other) ∧
        type.coerce strict piece = .error expected ∧ error = .badValue e.field piece expected := by
  have hone : ∀ piece, (type.coerce strict piece).mapError (FilterError.badValue e.field piece) =
      .error error ↔ ∃ expected, type.coerce strict piece = .error expected ∧
        error = .badValue e.field piece expected := by
    intro piece
    cases type.coerce strict piece <;> simp [Except.mapError, eq_comm]
  have hread : ∀ piece, (∃ value, (type.coerce strict piece).mapError
      (FilterError.badValue e.field piece) = .ok value) ↔ type.Accepts strict piece := by
    intro piece
    rw [← ValueType.exists_coerce_eq_ok_iff]
    cases type.coerce strict piece <;> simp [Except.mapError]
  rw [coerceAll_eq_mapM, mapM_eq_error_iff]
  simp only [hone, hread, exists_and_left]

theorem exists_comparison_eq_ok_iff :
    (∃ comparison, e.comparison strict type = .ok comparison) ↔ e.Fits strict type := by
  simp only [comparison_eq_ok_iff_tests, exists_tests_iff_fits]

theorem unfit_of_comparison_eq_error (h : e.comparison strict type = .error error) :
    e.Unfit strict type error := by
  have hpiece : e.operator ≠ .like → (e.operator = .between → type = .long) →
      e.coerceAll strict type e.pieces = .error error → e.Unfit strict type error := by
    intro hoperator hrange hpieces
    obtain ⟨before, piece, after, expected, hsplit, hbefore, hread, rfl⟩ :=
      coerceAll_eq_error_iff.1 hpieces
    exact .piece hoperator hrange hsplit hbefore hread
  have hfits : ¬ e.Fits strict type := by
    rw [← exists_comparison_eq_ok_iff, h]
    simp
  unfold FilterExpression.comparison at h
  cases hoperator : e.operator with
  | like =>
    simp only [hoperator] at h
    split at h
    next => cases h
    next htype =>
      rw [← Except.error.inj h]
      exact .pattern hoperator htype
  | isIn =>
    simp only [hoperator] at h
    cases hpieces : e.coerceAll strict type e.pieces with
    | ok values => simp [hpieces, Except.map] at h
    | error other =>
      obtain rfl : other = error := by simpa [hpieces, Except.map] using h
      exact hpiece (by simp [hoperator]) (by simp [hoperator]) hpieces
  | eq =>
    simp only [hoperator] at h
    split at h
    next => cases h
    next hpieces =>
      exact absurd (List.eq_nil_of_length_eq_zero
        (coerceAll_eq_ok_iff.1 hpieces).length_eq) e.pieces_ne_nil
    next hpieces =>
      obtain rfl := Except.error.inj h
      exact hpiece (by simp [hoperator]) (by simp [hoperator]) hpieces
  | between =>
    simp only [hoperator] at h
    split at h
    next htype =>
      split at h
      next => cases h
      next values _ hpieces =>
        have hread := exists_coerces_iff.1 ⟨values, coerceAll_eq_ok_iff.1 hpieces⟩
        rw [← Except.error.inj h]
        refine .count hoperator htype hread fun hlength => hfits ?_
        exact ⟨by simp [hoperator], fun _ => ⟨htype, hlength⟩, fun _ => hread⟩
      next hpieces =>
        obtain rfl := Except.error.inj h
        exact hpiece (by simp [hoperator]) (fun _ => htype) hpieces
    next htype =>
      rw [← Except.error.inj h]
      exact .range hoperator htype

theorem comparison_of_unfit (h : e.Unfit strict type error) :
    e.comparison strict type = .error error := by
  unfold FilterExpression.comparison
  cases h with
  | pattern hoperator htype => simp only [hoperator, if_neg htype]
  | range hoperator htype => simp only [hoperator, if_neg htype]
  | piece hoperator hrange hpieces hbefore hpiece =>
    have hread := (coerceAll_eq_error_iff (e := e)).2
      ⟨_, _, _, _, hpieces, hbefore, hpiece, rfl⟩
    cases hop : e.operator with
    | like => exact absurd hop hoperator
    | isIn => simp only [hread, Except.map]
    | eq => simp only [hread]
    | between => simp only [hread, if_pos (hrange hop)]
  | count hoperator htype hpieces hlength =>
    obtain ⟨values, hvalues⟩ := exists_coerces_iff.2 hpieces
    have hread := (coerceAll_eq_ok_iff (e := e)).2 hvalues
    simp only [hoperator, if_pos htype, hread]
    split
    next hpair =>
      obtain rfl := Except.ok.inj hpair
      exact absurd hvalues.length_eq hlength
    next => rfl
    next hother => cases hother

theorem comparison_eq_error_iff :
    e.comparison strict type = .error error ↔ e.Unfit strict type error :=
  ⟨unfit_of_comparison_eq_error, comparison_of_unfit⟩

end FilterExpression

namespace Compiler

variable {c : Compiler} {e : FilterExpression} {es : List FilterExpression} {error : FilterError}

/-! ### One filter -/

/-- The filter is well-typed: its path leads through relations to a scalar field, and it can be
applied to a field of that type. -/
def Typed (c : Compiler) (e : FilterExpression) : Prop :=
  ∃ resolved, c.registry.Resolves c.root e.path resolved ∧ e.Fits c.strictBooleans resolved.type

/-- The error of a filter that is not well-typed. The path comes before the operator and the
pieces. -/
inductive Refuses (c : Compiler) (e : FilterExpression) : FilterError → Prop
  | path {error : FilterError} (hpath : c.registry.resolve c.root e.path = .error error) :
      Refuses c e error
  | leaf {resolved : ResolvedPath} {error : FilterError}
      (hpath : c.registry.Resolves c.root e.path resolved)
      (hunfit : e.Unfit c.strictBooleans resolved.type error) : Refuses c e error

theorem exists_check_eq_ok_iff_typed : (∃ f, c.check e = .ok f) ↔ c.Typed e := by
  unfold Typed
  simp only [check_eq_ok_iff, WellTyped, ← FilterExpression.exists_comparison_eq_ok_iff]
  constructor
  · rintro ⟨⟨path, comparison⟩, hpath, hcomparison⟩
    exact ⟨path, hpath, comparison, hcomparison⟩
  · rintro ⟨path, hpath, comparison, hcomparison⟩
    exact ⟨⟨path, comparison⟩, hpath, hcomparison⟩

theorem check_eq_error_iff : c.check e = .error error ↔ c.Refuses e error := by
  unfold check
  rw [bind_eq_error_iff]
  constructor
  · rintro (hpath | ⟨path, hpath, h⟩)
    · exact .path hpath
    · obtain h | ⟨comparison, -, h⟩ := bind_eq_error_iff.1 h
      · exact .leaf (Registry.resolve_eq_ok_iff.1 hpath)
          (FilterExpression.comparison_eq_error_iff.1 h)
      · cases h
  · intro h
    cases h with
    | path hpath => exact .inl hpath
    | leaf hpath hunfit =>
      exact .inr ⟨_, Registry.resolve_eq_ok_iff.2 hpath,
        bind_eq_error_iff.2 (.inl (FilterExpression.comparison_eq_error_iff.2 hunfit))⟩

theorem Refuses.not_typed (h : c.Refuses e error) : ¬ c.Typed e := by
  rw [← exists_check_eq_ok_iff_typed, check_eq_error_iff.2 h]
  simp

/-- No filter is refused for want of a value, because even the empty text has a first piece. -/
theorem Refuses.ne_someValue (h : c.Refuses e error) (field value : String) :
    error ≠ .badValue field value .someValue := by
  rintro rfl
  cases h with
  | path hpath =>
    obtain ⟨path, fault, h⟩ := Registry.unresolved_of_resolveFrom_eq_error hpath
    cases h
  | leaf hpath hunfit =>
    cases hunfit with
    | piece _ _ _ _ hpiece =>
      obtain h | h := ValueType.expected_of_coerce_eq_error hpiece <;> cases h

/-! ### A list of filters -/

section

variable {σ Path Predicate : Type} [PredicateBuilder σ Path Predicate]

theorem compileAll_fst (c : Compiler) (es : List FilterExpression) (s : σ) :
    (c.compileAll es s).1 = (es.mapM c.check).map fun fs =>
      PredicateBuilder.conjoin σ none (PredicateBuilder.build c.root fs s) := by
  unfold compileAll
  cases hcheck : es.mapM c.check with
  | error error =>
    obtain ⟨state, h⟩ := exists_compileOnto_eq_error hcheck none s
    rw [h]
    rfl
  | ok fs =>
    rw [compileOnto_of_check_eq_ok hcheck]
    rfl

theorem compileAll_eq_ok_iff {s : σ} {result : Option Predicate} :
    (c.compileAll es s).1 = .ok result ↔ ∃ fs, es.mapM c.check = .ok fs ∧
      result = PredicateBuilder.conjoin σ none (PredicateBuilder.build c.root fs s) := by
  rw [compileAll_fst]
  cases es.mapM c.check <;> simp [Except.map, eq_comm]

theorem exists_compileAll_eq_ok_iff {s : σ} :
    (∃ result, (c.compileAll es s).1 = .ok result) ↔ ∀ e ∈ es, c.Typed e := by
  have hchecked : (∃ result, (c.compileAll es s).1 = .ok result) ↔
      ∃ fs, es.mapM c.check = .ok fs := by
    simp [compileAll_eq_ok_iff]
  simp only [hchecked, mapM_eq_ok_iff, exists_forall₂_iff, exists_check_eq_ok_iff_typed]

theorem compileAll_eq_error_iff {s : σ} :
    (c.compileAll es s).1 = .error error ↔ ∃ before e after, es = before ++ e :: after ∧
      (∀ other ∈ before, c.Typed other) ∧ c.Refuses e error := by
  have hchecked : (c.compileAll es s).1 = .error error ↔ es.mapM c.check = .error error := by
    rw [compileAll_fst]
    cases es.mapM c.check <;> simp [Except.map]
  simp only [hchecked, mapM_eq_error_iff, exists_check_eq_ok_iff_typed, check_eq_error_iff]

end

/-! ### What is described -/

/-- The test that describes a well-typed filter: it is about the field that the filter's path is
written as, and it is the test that the filter makes of that field. -/
structure Describes (c : Compiler) (e : FilterExpression) (leaf : FieldRef × Comparison Value) :
    Prop where
  field : leaf.1 = ⟨e.path.dropLast, e.path.getLast?⟩
  text : leaf.1.text = e.field
  test : ∃ resolved, c.registry.Resolves c.root e.path resolved ∧
    e.Tests c.strictBooleans resolved.type leaf.2

theorem describes_of_check {f : CheckedFilter} (h : c.check e = .ok f) :
    c.Describes e (f.ref, f.comparison) := by
  obtain ⟨hresolves, hcomparison⟩ := check_eq_ok_iff.1 h
  refine ⟨?_, text_ref_of_check h, f.path, hresolves,
    FilterExpression.comparison_eq_ok_iff_tests.1 hcomparison⟩
  rw [CheckedFilter.ref, ← hresolves.names, List.dropLast_concat, List.getLast?_concat]

/-- Every segment of a path but the last is a relation. -/
theorem sum_relations {fs : List CheckedFilter}
    (h : List.Forall₂ (fun e f => c.check e = .ok f) es fs) :
    (fs.map fun f => f.path.hops.length).sum = (es.map fun e => e.path.length - 1).sum := by
  induction h with
  | nil => rfl
  | @cons e f es fs hcheck _ ih =>
    have hlength : e.path.length = f.path.hops.length + 1 := by
      rw [← (check_eq_ok_iff.1 hcheck).1.names]
      simp
    rw [List.map_cons, List.map_cons, List.sum_cons, List.sum_cons, ih, hlength,
      Nat.add_sub_cancel]

end Compiler

namespace Describer

theorem follow_snd (hops : List Hop) (path : FieldRef) (s : Describer) :
    (PredicateBuilder.follow hops path s).2 = ⟨s.traversals + hops.length⟩ := by
  induction hops generalizing path s with
  | nil => rfl
  | cons hop hops ih =>
    rw [PredicateBuilder.follow, ih, List.length_cons, Nat.add_comm hops.length, ← Nat.add_assoc]
    rfl

theorem afterBuild_eq (root : Schema) (fs : List CheckedFilter) (s : Describer) :
    PredicateBuilder.afterBuild root fs s =
      ⟨s.traversals + (fs.map fun f => f.path.hops.length).sum⟩ := by
  induction fs generalizing s with
  | nil => rfl
  | cons f fs ih =>
    have hreach : (PredicateBuilder.reach root f.path s).2 = ⟨s.traversals + f.path.hops.length⟩ :=
      follow_snd f.path.hops ⟨[], none⟩ s
    rw [List.map_cons, List.sum_cons, ← Nat.add_assoc]
    show PredicateBuilder.afterBuild root fs (PredicateBuilder.reach root f.path s).2 = _
    rw [hreach, ih]

theorem conjuncts_conjoin_build (root : Schema) (fs : List CheckedFilter) (s : Describer) :
    ((PredicateBuilder.conjoin Describer none (PredicateBuilder.build root fs s)).map
      Description.conjuncts).getD [] = fs.map fun f => (f.ref, f.comparison) := by
  rw [PredicateBuilder.view_conjoin (fun _ _ => rfl), conjuncts_build]
  rfl

/-- **The compiler accepts exactly the well-typed filters, all or nothing.** A list of filters is
described exactly if all of them are well-typed. Then there is no description for the empty list
only, its tests describe the filters one by one, and the relations on all paths have been counted.
Otherwise the error is that of the first filter that is not well-typed, which it has alone as well;
it is never that a value is missing. -/
theorem accepts_exactly_the_well_typed (c : Compiler) (es : List FilterExpression) (s : Describer) :
    ((∃ result, (c.compileAll es s).1 = .ok result) ↔ ∀ e ∈ es, c.Typed e) ∧
    (∀ result, (c.compileAll es s).1 = .ok result →
      (result = none ↔ es = []) ∧
      List.Forall₂ c.Describes es ((result.map Description.conjuncts).getD []) ∧
      (c.compileAll es s).2.traversals = s.traversals + (es.map fun e => e.path.length - 1).sum) ∧
    ∀ error, (c.compileAll es s).1 = .error error →
      (∃ before e after, es = before ++ e :: after ∧ (∀ other ∈ before, c.Typed other) ∧
        ¬ c.Typed e ∧ c.Refuses e error ∧ ∀ t : Describer, (c.compileAll [e] t).1 = .error error) ∧
      ∀ field value, error ≠ .badValue field value .someValue := by
  refine ⟨Compiler.exists_compileAll_eq_ok_iff, fun result hresult => ?_, fun error herror => ?_⟩
  · obtain ⟨fs, hcheck, rfl⟩ := Compiler.compileAll_eq_ok_iff.1 hresult
    have hpointwise := mapM_eq_ok_iff.1 hcheck
    refine ⟨?_, ?_, ?_⟩
    · rw [PredicateBuilder.conjoin_eq_none_iff, PredicateBuilder.build_eq_nil_iff]
      constructor
      · rintro ⟨-, rfl⟩
        exact List.forall₂_nil_right_iff.1 hpointwise
      · rintro rfl
        exact ⟨rfl, List.forall₂_nil_left_iff.1 hpointwise⟩
    · rw [conjuncts_conjoin_build, List.forall₂_map_right_iff]
      exact hpointwise.imp fun _ _ => Compiler.describes_of_check
    · rw [Compiler.compileAll, Compiler.compileOnto_of_check_eq_ok hcheck, afterBuild_eq,
        Compiler.sum_relations hpointwise]
  · obtain ⟨before, e, after, hsplit, hbefore, hrefuses⟩ :=
      Compiler.compileAll_eq_error_iff.1 herror
    refine ⟨⟨before, e, after, hsplit, hbefore, hrefuses.not_typed, hrefuses, fun t => ?_⟩,
      hrefuses.ne_someValue⟩
    exact Compiler.compileAll_eq_error_iff.2 ⟨[], e, [], rfl, by simp, hrefuses⟩

/-! ### Filters on the orders of a customer -/

/-- Orders in a range of totals, with one of two numbers, of the first customer. -/
def orderFilters : List FilterExpression :=
  [.ofField "orders.total" .between "20,30", .ofField "orders.id" .isIn "11,10,11",
    .ofField "id" .eq "1,2"]

/-- The range keeps its bounds, the list its repetition, and equality the first piece. -/
def orderDescription : Description :=
  .and (.and (.leaf ⟨["orders"], some "total"⟩ (.between 20 30))
      (.leaf ⟨["orders"], some "id"⟩ (.isIn [.long 11, .long 10, .long 11])))
    (.leaf ⟨[], some "id"⟩ (.equal (.long 1)))

/-- A total that is no number, and after it a field that there is not. -/
def illTyped : List FilterExpression :=
  [.ofField "orders.total" .eq "25,x", .ofField "orders.nope" .eq "1"]

/-- All three filters are described; with the two others the first of these is what is told. -/
theorem accepts_exactly_the_well_typed_of_orders :
    (Sql.shopCompiler.compileAll orderFilters ({} : Describer)).1 = .ok (some orderDescription) ∧
      (∀ e ∈ orderFilters, Sql.shopCompiler.Typed e) ∧
      List.Forall₂ Sql.shopCompiler.Describes orderFilters orderDescription.conjuncts ∧
      (Sql.shopCompiler.compileAll orderFilters ({} : Describer)).2.traversals = 2 ∧
      (Sql.shopCompiler.compileAll (orderFilters ++ illTyped) ({} : Describer)).1 =
        .error (.badValue "orders.total" "x" .integer) ∧
      ∃ e ∈ orderFilters ++ illTyped, ¬ Sql.shopCompiler.Typed e := by
  have hdescribed : (Sql.shopCompiler.compileAll orderFilters ({} : Describer)).1 =
      .ok (some orderDescription) := by decide +kernel
  have hrefused : (Sql.shopCompiler.compileAll (orderFilters ++ illTyped) ({} : Describer)).1 =
      .error (.badValue "orders.total" "x" .integer) := by decide +kernel
  obtain ⟨haccepted, hresult, -⟩ :=
    accepts_exactly_the_well_typed Sql.shopCompiler orderFilters {}
  obtain ⟨-, hdescribes, htraversals⟩ := hresult _ hdescribed
  obtain ⟨⟨before, e, after, hsplit, -, htyped, -⟩, -⟩ :=
    (accepts_exactly_the_well_typed Sql.shopCompiler (orderFilters ++ illTyped) {}).2.2 _ hrefused
  exact ⟨hdescribed, haccepted.1 ⟨_, hdescribed⟩, hdescribes, htraversals, hrefused, e,
    by simp [hsplit], htyped⟩

end Describer

end QuerySieve
