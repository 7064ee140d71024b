import QuerySieve.Proofs.Text
import QuerySieve.Proofs.Typing

/-!
# QuerySieve.Proofs.Strictness

**Strict booleans only reject more**, except for one kind of text.

A permissive reader takes any piece for a boolean, a strict one only the two words. What the strict
one takes, both take for the same, unless the piece is the word `true` in white space: only the
strict reader trims (`readsTrue_eq_iff`). So the two make the same test of a filter unless such a
piece is compared with (`FilterExpression.comparison_of_strict`), and where only the permissive one
makes a test, a boolean was refused (`FilterExpression.Unfit.boolean`).

From one filter this is carried to a request through checking. Paths do not depend on the values, so
a builder goes through the same states in both modes.
-/

namespace QuerySieve

variable {type : ValueType} {piece : String} {strict : Bool}

/-! ### Pieces -/

/-- The word `true`, with white space around it. -/
def IsPaddedTrue (piece : String) : Prop :=
  Text.lower (Text.trim piece) = "true" ∧ Text.lower piece ≠ "true"

/-- Is the piece taken for `true`? -/
def readsTrue (strict : Bool) (piece : String) : Bool :=
  Text.lower (if strict then Text.trim piece else piece) = "true"

theorem readsTrue_eq_iff : readsTrue false piece = readsTrue true piece ↔ ¬ IsPaddedTrue piece := by
  by_cases hlower : Text.lower piece = "true"
  · -- no white space is left in the word, so none was there
    have htrim : Text.trim piece = piece := Text.trim_eq_self_of_lower (hlower ▸ rfl)
    simp [readsTrue, IsPaddedTrue, htrim, hlower]
  · simp [readsTrue, IsPaddedTrue, hlower]

namespace ValueType

theorem coerce_boolean_eq_ok_iff {value : Value} : boolean.coerce strict piece = .ok value ↔
    boolean.Accepts strict piece ∧ value = .boolean (readsTrue strict piece) := by
  cases strict with
  | false => simp [coerce, Accepts, readsTrue, eq_comm]
  | true =>
    by_cases htrue : Text.lower (Text.trim piece) = "true"
    · simp [coerce, Accepts, readsTrue, htrue, eq_comm]
    · by_cases hfalse : Text.lower (Text.trim piece) = "false" <;>
        simp [coerce, Accepts, readsTrue, htrue, hfalse, eq_comm]

theorem expected_of_boolean {expected : Expectation}
    (h : boolean.coerce strict piece = .error expected) : expected = .boolean := by
  simp only [coerce] at h
  split_ifs at h
  exact (Except.error.inj h).symm

theorem coerce_of_ne_boolean (htype : type ≠ boolean) (piece : String) :
    type.coerce true piece = type.coerce false piece := by
  cases type with
  | boolean => exact absurd rfl htype
  | _ => rfl

end ValueType

/-! ### The test of one filter -/

namespace FilterExpression

variable {e : FilterExpression} {comparison : Comparison Value} {error : FilterError}

/-- The pieces whose values are compared with: of those that equality is given, the first. -/
def compared (e : FilterExpression) : List String :=
  match e.operator with
  | .eq => e.pieces.take 1
  | .isIn => e.pieces
  | .like | .between => []

/-- The filter compares a boolean with a padded `true`. -/
def Misread (e : FilterExpression) (type : ValueType) : Prop :=
  type = .boolean ∧ ∃ piece ∈ e.compared, IsPaddedTrue piece

theorem coerces_boolean_iff {pieces : List String} {values : List Value} :
    Coerces strict .boolean pieces values ↔
      (∀ piece ∈ pieces, ValueType.boolean.Accepts strict piece) ∧
        values = pieces.map fun piece => .boolean (readsTrue strict piece) := by
  unfold Coerces
  simp only [ValueType.coerce_boolean_eq_ok_iff]
  induction pieces generalizing values with
  | nil => simp
  | cons piece pieces ih =>
    simp only [List.forall₂_cons_left_iff, ih, List.forall_mem_cons, List.map_cons]
    constructor
    · rintro ⟨_, _, ⟨hpiece, rfl⟩, ⟨hpieces, rfl⟩, rfl⟩
      exact ⟨⟨hpiece, hpieces⟩, rfl⟩
    · rintro ⟨⟨hpiece, hpieces⟩, rfl⟩
      exact ⟨_, _, ⟨hpiece, rfl⟩, ⟨hpieces, rfl⟩, rfl⟩

theorem comparison_of_ne_boolean (htype : type ≠ .boolean) :
    e.comparison true type = e.comparison false type := by
  have hpieces : ∀ pieces, e.coerceAll true type pieces = e.coerceAll false type pieces := by
    simp [coerceAll_eq_mapM, ValueType.coerce_of_ne_boolean htype]
  simp only [FilterExpression.comparison, hpieces]

/-- What makes a test of a boolean makes one in the permissive mode, the same one unless a padded
`true` is compared with. -/
theorem Tests.permissive (h : e.Tests true .boolean comparison) : ∃ other,
    e.Tests false .boolean other ∧ (other = comparison ↔ ¬ e.Misread .boolean) := by
  have haccepts : ∀ piece ∈ e.pieces, ValueType.boolean.Accepts false piece := by
    intro piece _ hstrict
    cases hstrict
  have hread := coerces_boolean_iff.2 ⟨haccepts, rfl⟩
  cases h with
  | like _ htype => cases htype
  | between _ htype _ => cases htype
  | isIn hoperator hpieces =>
    obtain ⟨-, rfl⟩ := coerces_boolean_iff.1 hpieces
    refine ⟨_, .isIn hoperator hread, ?_⟩
    simp [Misread, compared, hoperator, readsTrue_eq_iff]
  | equal hoperator hpieces =>
    obtain ⟨-, hvalues⟩ := coerces_boolean_iff.1 hpieces
    obtain ⟨piece, pieces, hsplit⟩ := List.exists_cons_of_ne_nil e.pieces_ne_nil
    rw [hsplit, List.map_cons] at hvalues hread
    obtain ⟨rfl, -⟩ := List.cons.inj hvalues
    refine ⟨_, .equal hoperator (hsplit ▸ hread), ?_⟩
    simp [Misread, compared, hoperator, hsplit, readsTrue_eq_iff]

theorem comparison_of_strict (h : e.comparison true type = .ok comparison) : ∃ other,
    e.comparison false type = .ok other ∧ (other = comparison ↔ ¬ e.Misread type) := by
  by_cases htype : type = .boolean
  · subst htype
    obtain ⟨other, hother, hsame⟩ := (comparison_eq_ok_iff_tests.1 h).permissive
    exact ⟨other, comparison_eq_ok_iff_tests.2 hother, hsame⟩
  · exact ⟨comparison, comparison_of_ne_boolean htype ▸ h,
      iff_of_true rfl fun hmisread => htype hmisread.1⟩

/-- A filter that suits its leaf in the permissive mode only is refused for a boolean. -/
theorem Unfit.boolean (h : e.Unfit true type error) (hfits : e.Fits false type) :
    type = .boolean ∧ ∃ piece ∈ e.pieces, error = .badValue e.field piece .boolean := by
  cases h with
  | pattern hoperator htype => exact absurd (hfits.pattern hoperator) htype
  | range hoperator htype => exact absurd (hfits.range hoperator).1 htype
  | count hoperator _ _ hlength => exact absurd (hfits.range hoperator).2 hlength
  | @piece before after piece expected hoperator _ hpieces _ hpiece =>
    have hmem : piece ∈ e.pieces := by simp [hpieces]
    obtain ⟨value, hvalue⟩ :=
      ValueType.exists_coerce_eq_ok_iff.2 (hfits.pieces hoperator piece hmem)
    have htype : type = .boolean := by
      by_contra hne
      rw [ValueType.coerce_of_ne_boolean hne, hvalue] at hpiece
      cases hpiece
    subst htype
    obtain rfl : expected = .boolean := ValueType.expected_of_boolean hpiece
    exact ⟨rfl, piece, hmem, rfl⟩

end FilterExpression

/-! ### Checking a request -/

namespace Compiler

variable {c : Compiler} {e : FilterExpression} {es : List FilterExpression} {error : FilterError}
variable {f : CheckedFilter} {fs gs : List CheckedFilter}

/-- The same compiler, strict or permissive. -/
def reading (c : Compiler) (strict : Bool) : Compiler := { c with strictBooleans := strict }

/-- The filter leads to a boolean and compares it with a padded `true`. -/
def Misreads (c : Compiler) (e : FilterExpression) : Prop :=
  ∃ resolved, c.registry.Resolves c.root e.path resolved ∧ e.Misread resolved.type

theorem check_of_strict (h : (c.reading true).check e = .ok f) : ∃ g,
    (c.reading false).check e = .ok g ∧ g.path = f.path ∧ (g = f ↔ ¬ c.Misreads e) := by
  obtain ⟨hresolves, hcomparison⟩ := check_eq_ok_iff.1 h
  obtain ⟨other, hother, hsame⟩ := FilterExpression.comparison_of_strict hcomparison
  have hmisreads : c.Misreads e ↔ e.Misread f.path.type := by
    refine ⟨fun ⟨resolved, hother, hmisread⟩ => ?_, fun hmisread => ⟨f.path, hresolves, hmisread⟩⟩
    rwa [hresolves.unique hother]
  refine ⟨⟨f.path, other⟩, check_eq_ok_iff.2 ⟨hresolves, hother⟩, rfl, ?_⟩
  rw [hmisreads, ← hsame]
  exact ⟨fun heq => heq ▸ rfl, fun heq => heq ▸ rfl⟩

/-- The filters are checked one by one, so they lead to the same fields in both modes. -/
theorem mapM_check_of_strict (h : es.mapM (c.reading true).check = .ok fs) : ∃ gs,
    es.mapM (c.reading false).check = .ok gs ∧ gs.map (·.path) = fs.map (·.path) ∧
      (gs = fs ↔ ∀ e ∈ es, ¬ c.Misreads e) := by
  induction mapM_eq_ok_iff.1 h with
  | nil => exact ⟨[], rfl, rfl, by simp⟩
  | @cons e f es fs hcheck hrest ih =>
    obtain ⟨g, hg, hpath, hsame⟩ := check_of_strict hcheck
    obtain ⟨gs, hgs, hpaths, hall⟩ := ih (mapM_eq_ok_iff.2 hrest)
    refine ⟨g :: gs, mapM_eq_ok_iff.2 (.cons hg (mapM_eq_ok_iff.1 hgs)),
      congrArg₂ List.cons hpath hpaths, ?_⟩
    rw [List.cons.injEq, hsame, hall, List.forall_mem_cons]

/-- What only the strict mode refuses is a boolean. -/
theorem refuses_of_strict (h : (c.reading true).check e = .error error)
    (hpermissive : (c.reading false).check e = .ok f) : ∃ resolved piece,
      c.registry.Resolves c.root e.path resolved ∧ resolved.type = .boolean ∧ piece ∈ e.pieces ∧
        error = .badValue e.field piece .boolean := by
  obtain ⟨resolved, hresolves, hfits⟩ := exists_check_eq_ok_iff_typed.1 ⟨f, hpermissive⟩
  cases check_eq_error_iff.1 h with
  | path hpath => exact absurd (hpath.symm.trans (Registry.resolve_eq_ok_iff.2 hresolves)) (by simp)
  | leaf hpath hunfit =>
    obtain rfl := hresolves.unique hpath
    obtain ⟨htype, piece, hpiece, herror⟩ := hunfit.boolean hfits
    exact ⟨resolved, piece, hresolves, htype, hpiece, herror⟩

/-! ### Compiling -/

section

variable {σ Path Predicate : Type} [PredicateBuilder σ Path Predicate]

open PredicateBuilder

theorem afterBuild_congr {root : Schema} (h : gs.map (·.path) = fs.map (·.path)) (s : σ) :
    afterBuild root gs s = afterBuild root fs s := by
  have hpaths : ∀ hs : List CheckedFilter, afterBuild root hs s =
      (hs.map (·.path)).foldl (fun s path => (reach root path s).2) s := by
    intro hs
    rw [List.foldl_map]
    rfl
  rw [hpaths, hpaths, h]

/-- Compiling succeeds with what is built of the checked filters, in the state that this leaves. -/
theorem compile_eq_ok_iff {params : Params} {s t : σ} {result : Option Predicate} :
    c.compile params s = (.ok result, t) ↔ ∃ fs,
      (c.naming.decompose params).mapM c.check = .ok fs ∧
        result = conjoin σ none (build c.root fs s) ∧ t = afterBuild c.root fs s := by
  unfold compile compileAll
  cases hcheck : (c.naming.decompose params).mapM c.check with
  | error error =>
    obtain ⟨state, h⟩ := exists_compileOnto_eq_error hcheck none s
    simp [h]
  | ok fs =>
    simp [compileOnto_of_check_eq_ok hcheck, eq_comm]

variable {params : Params} {s t : σ}

theorem compile_of_strict {result : Option Predicate}
    (h : (c.reading true).compile params s = (.ok result, t)) : ∃ other,
      (c.reading false).compile params s = (.ok other, t) ∧
        ((∀ e ∈ c.naming.decompose params, ¬ c.Misreads e) → other = result) := by
  obtain ⟨fs, hstrict, rfl, rfl⟩ := compile_eq_ok_iff.1 h
  obtain ⟨gs, hpermissive, hpaths, hsame⟩ := mapM_check_of_strict hstrict
  refine ⟨_, compile_eq_ok_iff.2 ⟨gs, hpermissive, rfl, (afterBuild_congr hpaths s).symm⟩, ?_⟩
  intro hread
  rw [hsame.2 hread]
  rfl

/-- What only the strict mode refuses is refused for a boolean. -/
theorem exists_boolean_of_strict {error : FilterError} {result : Option Predicate}
    (h : (c.reading true).compile params s = (.error error, t)) {u : σ}
    (hpermissive : (c.reading false).compile params s = (.ok result, u)) :
    ∃ e ∈ c.naming.decompose params, ∃ resolved piece,
      c.registry.Resolves c.root e.path resolved ∧ resolved.type = .boolean ∧
        piece ∈ e.pieces ∧ error = .badValue e.field piece .boolean := by
  obtain ⟨gs, hgs, -⟩ := compile_eq_ok_iff.1 hpermissive
  cases hstrict : (c.naming.decompose params).mapM (c.reading true).check with
  | ok fs =>
    have hok := compile_eq_ok_iff (s := s).2 ⟨fs, hstrict, rfl, rfl⟩
    simpa using congrArg Prod.fst (h.symm.trans hok)
  | error other =>
    obtain ⟨state, hstate⟩ := exists_compileOnto_eq_error hstrict none s
    obtain rfl : other = error := by simpa using congrArg Prod.fst (hstate.symm.trans h)
    obtain ⟨before, e, after, hsplit, -, herror⟩ := mapM_eq_error_iff.1 hstrict
    have hmem : e ∈ c.naming.decompose params := hsplit ▸ by simp
    obtain ⟨f, hf⟩ := exists_forall₂_iff.1 ⟨gs, mapM_eq_ok_iff.1 hgs⟩ e hmem
    obtain ⟨resolved, piece, hrefused⟩ := refuses_of_strict herror hf
    exact ⟨e, hmem, resolved, piece, hrefused⟩

end

/-- Filters that lead to the same fields are told apart by their tests. -/
theorem eq_of_map_comparison (hpaths : gs.map (·.path) = fs.map (·.path))
    (h : gs.map (·.comparison) = fs.map (·.comparison)) : gs = fs := by
  have hzip : ∀ hs : List CheckedFilter,
      hs = List.zipWith CheckedFilter.mk (hs.map (·.path)) (hs.map (·.comparison)) := by
    intro hs
    rw [List.zipWith_map, List.zipWith_self]
    exact (List.map_id hs).symm
  rw [hzip gs, hzip fs, hpaths, h]

/-- In a description every test can be seen, so a padded `true` always makes a difference. -/
theorem describe_eq_iff {params : Params} {d : Describer} {result other : Option Description}
    (hstrict : ((c.reading true).compile params d).1 = .ok result)
    (hpermissive : ((c.reading false).compile params d).1 = .ok other) :
    other = result ↔ ∀ e ∈ c.naming.decompose params, ¬ c.Misreads e := by
  obtain ⟨fs, hfs, rfl⟩ := compileAll_eq_ok_iff.1 hstrict
  obtain ⟨gs, hgs, rfl⟩ := compileAll_eq_ok_iff.1 hpermissive
  obtain ⟨hs, hhs, hpaths, hsame⟩ := mapM_check_of_strict hfs
  obtain rfl : hs = gs := Except.ok.inj (hhs.symm.trans hgs)
  refine Iff.trans ?_ hsame
  constructor
  · intro heq
    have htests := congrArg (fun r => (r.map Description.conjuncts).getD []) heq
    simp only [Describer.conjuncts_conjoin_build] at htests
    refine eq_of_map_comparison hpaths ?_
    simpa [Function.comp_def] using congrArg (List.map Prod.snd) htests
  · rintro rfl
    rfl

/-- **Strict booleans only reject more.** What compiles in the strict mode compiles in the
permissive mode and leaves the builder in the same state, and the predicates are the same if no
filter compares a boolean with a padded `true`. What compiles in the permissive mode either compiles
in the strict mode, to the same predicate under that condition, or is refused there for a piece of a
filter on a boolean. And the condition is needed: where it fails, the descriptions of the two modes
differ. -/
theorem strict_booleans_only_reject_more {σ Path Predicate : Type}
    [PredicateBuilder σ Path Predicate] (c : Compiler) (params : Params) (s : σ) :
    (∀ result t, (c.reading true).compile params s = (.ok result, t) → ∃ other,
      (c.reading false).compile params s = (.ok other, t) ∧
        ((∀ e ∈ c.naming.decompose params, ¬ c.Misreads e) → other = result)) ∧
    (∀ result t, (c.reading false).compile params s = (.ok result, t) →
      (∃ other, (c.reading true).compile params s = (.ok other, t) ∧
        ((∀ e ∈ c.naming.decompose params, ¬ c.Misreads e) → other = result)) ∨
      ∃ e ∈ c.naming.decompose params, ∃ resolved piece,
        c.registry.Resolves c.root e.path resolved ∧ resolved.type = .boolean ∧
          piece ∈ e.pieces ∧
          ((c.reading true).compile params s).1 = .error (.badValue e.field piece .boolean)) ∧
    ∀ (d : Describer) result other, ((c.reading true).compile params d).1 = .ok result →
      ((c.reading false).compile params d).1 = .ok other →
        (other = result ↔ ∀ e ∈ c.naming.decompose params, ¬ c.Misreads e) := by
  refine ⟨fun result t h => compile_of_strict h, fun result t hpermissive => ?_,
    fun d result other => describe_eq_iff⟩
  rcases hstrict : (c.reading true).compile params s with ⟨outcome, state⟩
  cases outcome with
  | error error =>
    obtain ⟨e, he, resolved, piece, hresolves, htype, hpiece, rfl⟩ :=
      exists_boolean_of_strict hstrict hpermissive
    exact .inr ⟨e, he, resolved, piece, hresolves, htype, hpiece, rfl⟩
  | ok other =>
    obtain ⟨found, hfound, hsame⟩ := compile_of_strict hstrict
    obtain ⟨hresult, rfl⟩ := Prod.mk.inj (hfound.symm.trans hpermissive)
    obtain rfl := Except.ok.inj hresult
    exact .inl ⟨other, rfl, fun hread => (hsame hread).symm⟩

/-- Accounts, with a name and a mark of those in use. -/
def signedUp : Schema :=
  (Schema.new "account" "accounts").scalar "name" .string |>.scalar "active" .boolean

/-- The compiler of filters on accounts. -/
def signedUpCompiler : Compiler := { registry := .ofList [signedUp], root := signedUp }

/-- White space around `false`, and around the word `true` where no boolean is asked for. -/
def paddedFilters : Params :=
  .ofList [("f_active", "TRUE, false"), ("f_active_op", "in"), ("f_name", " true")]

theorem not_misreads_paddedFilters :
    ∀ e ∈ signedUpCompiler.naming.decompose paddedFilters, ¬ signedUpCompiler.Misreads e := by
  have hfilters : signedUpCompiler.naming.decompose paddedFilters =
      [.ofField "active" .isIn "TRUE, false", .ofField "name" .eq " true"] := by decide +kernel
  have hwords : ∀ piece ∈ (FilterExpression.ofField "active" .isIn "TRUE, false").compared,
      ¬ (Text.lower (Text.trim piece) = "true" ∧ Text.lower piece ≠ "true") := by decide
  have hname : signedUpCompiler.registry.resolve signedUp
      (FilterExpression.ofField "name" .eq " true").path =
        .ok ⟨[], ⟨"name", .scalar .string none⟩, .string⟩ := by decide +kernel
  rw [hfilters, List.forall_mem_cons, List.forall_mem_singleton]
  constructor
  · rintro ⟨-, -, -, piece, hpiece, hpadded⟩
    exact hwords piece hpiece hpadded
  · rintro ⟨resolved, hresolves, htype, -⟩
    obtain rfl := hresolves.unique (Registry.resolve_eq_ok_iff.1 hname)
    cases htype

/-- A word that is neither of the two. -/
def otherWord : Params := .ofList [("f_active", "yes")]

/-- Both modes describe the padded filters alike; of the other word only the permissive mode makes a
test. -/
theorem strict_booleans_only_reject_more_of_accounts :
    (∀ e ∈ signedUpCompiler.naming.decompose paddedFilters, ¬ signedUpCompiler.Misreads e) ∧
      (∃ result, (signedUpCompiler.reading true).compile paddedFilters ({} : Describer) =
          (.ok (some result), {}) ∧
        (signedUpCompiler.reading false).compile paddedFilters ({} : Describer) =
          (.ok (some result), {})) ∧
      (signedUpCompiler.reading false).compile otherWord ({} : Describer) =
        (.ok (some (.leaf ⟨[], some "active"⟩ (.equal (.boolean false)))), {}) ∧
      ∃ e ∈ signedUpCompiler.naming.decompose otherWord, ∃ piece ∈ e.pieces,
        ((signedUpCompiler.reading true).compile otherWord ({} : Describer)).1 =
          .error (.badValue e.field piece .boolean) := by
  have hstrict : (signedUpCompiler.reading true).compile paddedFilters ({} : Describer) =
      (.ok (some (.and (.leaf ⟨[], some "active"⟩ (.isIn [.boolean true, .boolean false]))
        (.leaf ⟨[], some "name"⟩ (.equal (.text " true"))))), {}) := by decide +kernel
  have hpermissive : (signedUpCompiler.reading false).compile otherWord ({} : Describer) =
      (.ok (some (.leaf ⟨[], some "active"⟩ (.equal (.boolean false)))), {}) := by decide +kernel
  have hrefused : ((signedUpCompiler.reading true).compile otherWord ({} : Describer)).1 =
      .error (.badValue "active" "yes" .boolean) := by decide +kernel
  obtain ⟨other, hother, hsame⟩ :=
    (strict_booleans_only_reject_more signedUpCompiler paddedFilters ({} : Describer)).1 _ _ hstrict
  obtain rfl := hsame not_misreads_paddedFilters
  refine ⟨not_misreads_paddedFilters, ⟨_, hstrict, hother⟩, hpermissive, ?_⟩
  obtain ⟨found, hfound, -⟩ | ⟨e, he, -, piece, -, -, hpiece, herror⟩ :=
    (strict_booleans_only_reject_more signedUpCompiler otherWord ({} : Describer)).2.1 _ _
      hpermissive
  · rw [hfound] at hrefused
    cases hrefused
  · exact ⟨e, he, piece, hpiece, herror⟩

/-- Of the word `true` after a blank the strict mode makes a test for `true`, and the permissive
mode one for `false`. -/
theorem padded_true_is_read_apart :
    (signedUpCompiler.reading true).compile (.ofList [("f_active", " true")]) ({} : Describer) =
        (.ok (some (.leaf ⟨[], some "active"⟩ (.equal (.boolean true)))), {}) ∧
      (signedUpCompiler.reading false).compile (.ofList [("f_active", " true")]) ({} : Describer) =
        (.ok (some (.leaf ⟨[], some "active"⟩ (.equal (.boolean false)))), {}) := by
  decide +kernel

end Compiler

end QuerySieve
