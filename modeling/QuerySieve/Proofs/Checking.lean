import Mathlib.Data.List.Forall2
import QuerySieve.Planner
import QuerySieve.Proofs.Compilation

/-!
# QuerySieve.Proofs.Checking

**Planning is checking first and building afterwards.**

A planner resolves, coerces and builds in turns, and a builder is asked for paths that come to
nothing when a later value is refused. Yet no check looks at what has been built. So a request can
be checked as a whole (`Planner.check`), which either refuses it or leaves a list of checked filters
and a graph, and whatever is built is a function of those (`CheckedRequest.plan`). The lemma
`Planner.plan_fst` says that the two ways agree for every builder in every state.

What two builders have in common is then a statement about `CheckedRequest.plan`, where nothing can
fail: a reading of predicates that turns conjunctions into lists reads the filters in their order
(`CheckedRequest.view_plan`), and a change of the values passes through (`CheckedRequest.map_plan`).
-/

namespace QuerySieve

theorem mapM_eq_ok_iff {ε α β : Type} {f : α → Except ε β} {xs : List α} {ys : List β} :
    xs.mapM f = .ok ys ↔ List.Forall₂ (fun x y => f x = .ok y) xs ys := by
  induction xs generalizing ys with
  | nil => cases ys <;> simp [pure, Except.pure]
  | cons x xs ih =>
    rw [List.mapM_cons, bind_eq_ok_iff, List.forall₂_cons_left_iff]
    constructor
    · intro h
      obtain ⟨y, hy, hrest⟩ := h
      obtain ⟨rest, hmap, hys⟩ := bind_eq_ok_iff.1 hrest
      exact ⟨y, rest, hy, ih.1 hmap, (Except.ok.inj hys).symm⟩
    · intro h
      obtain ⟨y, rest, hy, hmap, rfl⟩ := h
      exact ⟨y, hy, bind_eq_ok_iff.2 ⟨rest, ih.2 hmap, rfl⟩⟩

/-- A traversal is refused by the first element that is, and what follows is not looked at. -/
theorem mapM_eq_error_iff {ε α β : Type} {f : α → Except ε β} {xs : List α} {error : ε} :
    xs.mapM f = .error error ↔ ∃ before x after, xs = before ++ x :: after ∧
      (∀ other ∈ before, ∃ y, f other = .ok y) ∧ f x = .error error := by
  induction xs with
  | nil => simp [pure, Except.pure]
  | cons x xs ih =>
    rw [List.mapM_cons]
    simp only [List.cons_eq_append_iff]
    cases hx : f x with
    | error other =>
      have hstop : (.error other >>= fun y => xs.mapM f >>= fun ys => pure (y :: ys)) =
          (.error error : Except ε (List β)) ↔ other = error := by
        simp [bind, Except.bind]
      rw [hstop]
      constructor
      · rintro rfl
        exact ⟨[], x, xs, .inl ⟨rfl, rfl⟩, by simp, hx⟩
      · rintro ⟨before, z, after, ⟨rfl, hsplit⟩ | ⟨rest, rfl, -⟩, hbefore, hz⟩
        · obtain ⟨rfl, rfl⟩ := List.cons.inj hsplit
          exact Except.error.inj (hx.symm.trans hz)
        · obtain ⟨y, hy⟩ := hbefore x List.mem_cons_self
          exact absurd (hx.symm.trans hy) (by simp)
    | ok y =>
      have hrest : (.ok y >>= fun y => xs.mapM f >>= fun ys => pure (y :: ys)) =
          (.error error : Except ε (List β)) ↔ xs.mapM f = .error error := by
        cases xs.mapM f <;> simp [bind, Except.bind, pure, Except.pure]
      rw [hrest, ih]
      constructor
      · rintro ⟨before, z, after, rfl, hbefore, hz⟩
        exact ⟨x :: before, z, after, .inr ⟨before, rfl, rfl⟩,
          List.forall_mem_cons.2 ⟨⟨y, hx⟩, hbefore⟩, hz⟩
      · rintro ⟨before, z, after, ⟨rfl, hsplit⟩ | ⟨rest, rfl, rfl⟩, hbefore, hz⟩
        · obtain ⟨rfl, rfl⟩ := List.cons.inj hsplit
          exact absurd (hx.symm.trans hz) (by simp)
        · exact ⟨rest, z, after, rfl, (List.forall_mem_cons.1 hbefore).2, hz⟩

/-- Every element of the one list has its partner in the other. -/
theorem exists_of_mem_forall₂ {α β : Type} {R : α → β → Prop} {xs : List α} {ys : List β} {x : α}
    (h : List.Forall₂ R xs ys) (hx : x ∈ xs) : ∃ y ∈ ys, R x y := by
  induction h with
  | nil => cases hx
  | cons hone _ ih =>
    obtain rfl | hx := List.mem_cons.1 hx
    · exact ⟨_, List.mem_cons_self, hone⟩
    · obtain ⟨y, hy, hrelated⟩ := ih hx
      exact ⟨y, List.mem_cons_of_mem _ hy, hrelated⟩

theorem exists_of_mem_mapM {ε α β : Type} {f : α → Except ε β} {xs : List α} {ys : List β} {y : β}
    (h : xs.mapM f = .ok ys) (hy : y ∈ ys) : ∃ x ∈ xs, f x = .ok y :=
  exists_of_mem_forall₂ (mapM_eq_ok_iff.1 h).flip hy

/-- A filter after checking: the field that it leads to and the test that it makes of it. -/
structure CheckedFilter where
  path : ResolvedPath
  comparison : Comparison Value
  deriving DecidableEq

/-- The same field with another test. -/
def CheckedFilter.retest (change : Comparison Value → Comparison Value) (f : CheckedFilter) :
    CheckedFilter :=
  { f with comparison := change f.comparison }

namespace Compiler

variable {c : Compiler} {e : FilterExpression} {es : List FilterExpression} {error : FilterError}
variable {f : CheckedFilter} {fs : List CheckedFilter}

/-- Resolves a filter's path and coerces its value. -/
def check (c : Compiler) (e : FilterExpression) : Except FilterError CheckedFilter := do
  let path ← c.registry.resolve c.root e.path
  let comparison ← e.comparison c.strictBooleans path.type
  return ⟨path, comparison⟩

theorem check_eq_ok_iff : c.check e = .ok f ↔ c.WellTyped e f.path f.comparison := by
  unfold check WellTyped
  rw [bind_eq_ok_iff, ← Registry.resolve_eq_ok_iff]
  constructor
  · intro h
    obtain ⟨path, hpath, h⟩ := h
    obtain ⟨comparison, hcomparison, h⟩ := bind_eq_ok_iff.1 h
    obtain rfl := Except.ok.inj h
    exact ⟨hpath, hcomparison⟩
  · intro h
    exact ⟨f.path, h.1, bind_eq_ok_iff.2 ⟨f.comparison, h.2, rfl⟩⟩

end Compiler

/-! ### Building -/

namespace PredicateBuilder

variable {σ Path Predicate : Type} [PredicateBuilder σ Path Predicate]

/-- The predicates of checked filters, each in the state that the one before it leaves. -/
def build (root : Schema) : List CheckedFilter → σ → List Predicate
  | [], _ => []
  | f :: fs, s =>
    let (path, s) := reach root f.path s
    test σ path f.comparison :: build root fs s

/-- The state that building them leaves. -/
def afterBuild (root : Schema) (fs : List CheckedFilter) (s : σ) : σ :=
  fs.foldl (fun s f => (reach root f.path s).2) s

variable (σ) in
/-- The conjunction from left to right of what is there already and more. -/
def conjoin : Option Predicate → List Predicate → Option Predicate :=
  List.foldl fun acc predicate => some (andOption (σ := σ) acc predicate)

theorem build_cons (root : Schema) (f : CheckedFilter) (fs : List CheckedFilter) (s : σ) :
    build root (f :: fs) s =
      test σ (reach root f.path s).1 f.comparison :: build root fs (reach root f.path s).2 := rfl

theorem build_append (root : Schema) (fs gs : List CheckedFilter) (s : σ) :
    build root (fs ++ gs) s = build root fs s ++ build root gs (afterBuild root fs s) := by
  induction fs generalizing s with
  | nil => rfl
  | cons f fs ih => exact congrArg _ (ih _)

theorem build_eq_nil_iff {root : Schema} {fs : List CheckedFilter} {s : σ} :
    build root fs s = [] ↔ fs = [] := by
  cases fs <;> simp [build]

theorem conjoin_eq_none_iff {acc : Option Predicate} {ps : List Predicate} :
    conjoin σ acc ps = none ↔ acc = none ∧ ps = [] := by
  induction ps generalizing acc with
  | nil => simp [conjoin]
  | cons p ps ih => exact ih.trans (by simp)

section

variable {α : Type} {view : Predicate → List α}

/-- A reading that turns conjunctions into lists reads the conjuncts in their order. -/
theorem view_conjoin (hand : ∀ left right, view (and σ left right) = view left ++ view right)
    (acc : Option Predicate) (ps : List Predicate) :
    ((conjoin σ acc ps).map view).getD [] = (acc.map view).getD [] ++ ps.flatMap view := by
  induction ps generalizing acc with
  | nil => simp [conjoin]
  | cons p ps ih =>
    have hone : ((some (andOption (σ := σ) acc p)).map view).getD [] =
        (acc.map view).getD [] ++ view p := by
      cases acc with
      | none => rfl
      | some q => exact hand q p
    refine (ih _).trans ?_
    rw [hone, List.flatMap_cons, List.append_assoc]

theorem view_combine (hand : ∀ left right, view (and σ left right) = view left ++ view right)
    (forced own : Option Predicate) :
    ((Planner.combine (σ := σ) forced own).map view).getD [] =
      (forced.map view).getD [] ++ (own.map view).getD [] := by
  cases forced with
  | none => rfl
  | some f =>
    cases own with
    | none => simp [Planner.combine]
    | some o => exact hand f o

end

section

variable {change : Predicate → Predicate}

theorem map_conjoin
    (hand : ∀ left right, change (and σ left right) = and σ (change left) (change right))
    (acc : Option Predicate) (ps : List Predicate) :
    (conjoin σ acc ps).map change = conjoin σ (acc.map change) (ps.map change) := by
  induction ps generalizing acc with
  | nil => rfl
  | cons p ps ih =>
    have hone : (some (andOption (σ := σ) acc p)).map change =
        some (andOption (σ := σ) (acc.map change) (change p)) := by
      cases acc with
      | none => rfl
      | some q => exact congrArg some (hand q p)
    refine (ih _).trans ?_
    rw [hone]
    rfl

theorem map_combine
    (hand : ∀ left right, change (and σ left right) = and σ (change left) (change right))
    (forced own : Option Predicate) :
    (Planner.combine (σ := σ) forced own).map change =
      Planner.combine (σ := σ) (forced.map change) (own.map change) := by
  cases forced with
  | none => rfl
  | some f =>
    cases own with
    | none => rfl
    | some o => exact congrArg some (hand f o)

/-- A change of predicates that comes down to a change of the tests passes through building. -/
theorem map_build {retest : Comparison Value → Comparison Value}
    (htest : ∀ path comparison, change (test σ path comparison) = test σ path (retest comparison))
    (root : Schema) (fs : List CheckedFilter) (s : σ) :
    (build root fs s).map change = build root (fs.map (·.retest retest)) s := by
  induction fs generalizing s with
  | nil => rfl
  | cons f fs ih => exact congrArg₂ List.cons (htest _ _) (ih _)

theorem afterBuild_map {retest : Comparison Value → Comparison Value} (root : Schema)
    (fs : List CheckedFilter) (s : σ) :
    afterBuild root (fs.map (·.retest retest)) s = afterBuild root fs s := by
  rw [afterBuild, List.foldl_map]
  rfl

end

end PredicateBuilder

/-! ### Compiling is checking and building -/

namespace Compiler

open PredicateBuilder

variable {σ Path Predicate : Type} [PredicateBuilder σ Path Predicate]
variable {c : Compiler} {e : FilterExpression} {es : List FilterExpression} {error : FilterError}
variable {f : CheckedFilter} {fs : List CheckedFilter}

/-- The path of a refused filter may have been started, but the refusal is that of the check. -/
theorem exists_compileOne_eq_error (h : c.check e = .error error) (s : σ) :
    ∃ state, c.compileOne e s = (.error error, state) := by
  unfold check at h
  unfold compileOne
  cases hresolve : c.registry.resolve c.root e.path with
  | error other =>
    obtain rfl : other = error := by simpa [hresolve, bind, Except.bind] using h
    exact ⟨s, rfl⟩
  | ok path =>
    cases hcomparison : e.comparison c.strictBooleans path.type with
    | error other =>
      obtain rfl : other = error := by simpa [hresolve, hcomparison, bind, Except.bind] using h
      exact ⟨(reach c.root path s).2, by simp [hcomparison, Except.map]⟩
    | ok comparison => simp [hresolve, hcomparison, bind, Except.bind, pure, Except.pure] at h

theorem compileOne_of_check_eq_ok (h : c.check e = .ok f) (s : σ) :
    c.compileOne e s =
      (.ok (test σ (reach c.root f.path s).1 f.comparison), (reach c.root f.path s).2) := by
  obtain ⟨hresolves, hcomparison⟩ := check_eq_ok_iff.1 h
  unfold compileOne
  simp only [Registry.resolve_eq_ok_iff.2 hresolves, hcomparison, Except.map]

theorem exists_compileOnto_eq_error (h : es.mapM c.check = .error error) (acc : Option Predicate)
    (s : σ) : ∃ state, c.compileOnto acc es s = (.error error, state) := by
  induction es generalizing acc s with
  | nil => cases h
  | cons e es ih =>
    rw [List.mapM_cons] at h
    rw [compileOnto]
    -- the first filter is refused, or the refusal is among the others
    cases hcheck : c.check e with
    | error other =>
      obtain rfl : other = error := by simpa [hcheck, bind, Except.bind] using h
      obtain ⟨state, hone⟩ := exists_compileOne_eq_error hcheck s
      exact ⟨state, by rw [hone]⟩
    | ok f =>
      rw [compileOne_of_check_eq_ok hcheck s]
      refine ih ?_ _ _
      cases hrest : es.mapM c.check with
      | error other => simpa [hcheck, hrest, bind, Except.bind] using h
      | ok fs => simp [hcheck, hrest, bind, Except.bind, pure, Except.pure] at h

theorem compileOnto_of_check_eq_ok (h : es.mapM c.check = .ok fs) (acc : Option Predicate) (s : σ) :
    c.compileOnto acc es s =
      (.ok (conjoin σ acc (build c.root fs s)), afterBuild c.root fs s) := by
  induction mapM_eq_ok_iff.1 h generalizing acc s with
  | nil => rfl
  | @cons e f es fs hone hrest ih =>
    rw [compileOnto, compileOne_of_check_eq_ok hone s]
    exact ih (mapM_eq_ok_iff.2 hrest) _ _

end Compiler

/-- A request after checking. -/
structure CheckedRequest where
  root : Schema
  /-- The filters that the scope is subject to. -/
  forced : List CheckedFilter
  /-- The filters of the request itself. -/
  own : List CheckedFilter
  graph : FetchGraph

/-- Checks a request, without a builder. -/
def Planner.check (p : Planner) (entity : String) (params : Params) (naming : Naming)
    (scope : AccessScope) : Except FilterError CheckedRequest := do
  let root ← p.registry.schema entity
  let expressions ← p.forced scope
  let forced ← expressions.mapM (p.compiler root naming).check
  let own ← (naming.decompose params).mapM (p.compiler root naming).check
  let graph ← FetchGraph.ofParams p.registry root params
  return ⟨root, forced, own, graph⟩

namespace CheckedRequest

open PredicateBuilder

variable {σ Path Predicate : Type} [PredicateBuilder σ Path Predicate]

/-- All filters, the forced ones first. -/
def filters (r : CheckedRequest) : List CheckedFilter := r.forced ++ r.own

/-- What a builder makes of the request. -/
def plan (r : CheckedRequest) (s : σ) : SearchPlan Predicate where
  predicate := Planner.combine (σ := σ) (conjoin σ none (build r.root r.forced s))
    (conjoin σ none (build r.root r.own (afterBuild r.root r.forced s)))
  graph := r.graph

variable {r : CheckedRequest} {s : σ}

theorem predicate_plan_eq_none_iff : (r.plan s).predicate = none ↔ r.filters = [] := by
  have hcombine : ∀ forced own : Option Predicate,
      Planner.combine (σ := σ) forced own = none ↔ forced = none ∧ own = none := by
    intro forced own
    cases forced <;> cases own <;> simp [Planner.combine]
  simp [plan, filters, hcombine, conjoin_eq_none_iff, build_eq_nil_iff]

theorem view_plan {α : Type} {view : Predicate → List α}
    (hand : ∀ left right, view (PredicateBuilder.and σ left right) = view left ++ view right) :
    ((r.plan s).predicate.map view).getD [] = (build r.root r.filters s).flatMap view := by
  rw [plan, view_combine hand, view_conjoin hand, view_conjoin hand, filters, build_append,
    List.flatMap_append]
  rfl

/-- The same request with other tests. -/
def retest (r : CheckedRequest) (change : Comparison Value → Comparison Value) : CheckedRequest :=
  { r with forced := r.forced.map (·.retest change), own := r.own.map (·.retest change) }

theorem map_plan {change : Predicate → Predicate} {retest : Comparison Value → Comparison Value}
    (hand : ∀ left right, change (PredicateBuilder.and σ left right) =
      PredicateBuilder.and σ (change left) (change right))
    (htest : ∀ path comparison, change (test σ path comparison) = test σ path (retest comparison)) :
    (r.plan s).predicate.map change = ((r.retest retest).plan s).predicate := by
  simp only [plan, map_combine hand, map_conjoin hand, map_build htest, CheckedRequest.retest,
    afterBuild_map, Option.map_none]

end CheckedRequest

namespace Planner

variable {p : Planner} {entity : String} {params : Params} {naming : Naming} {scope : AccessScope}

/-- Each checked filter stems from a filter of its own: the forced ones from the access rule, the
others from the parameters. -/
theorem check_eq_ok {r : CheckedRequest} (h : p.check entity params naming scope = .ok r) :
    ∃ expressions, p.registry.schema entity = .ok r.root ∧ p.forced scope = .ok expressions ∧
      expressions.mapM (p.compiler r.root naming).check = .ok r.forced ∧
        (naming.decompose params).mapM (p.compiler r.root naming).check = .ok r.own := by
  obtain ⟨root, hroot, h⟩ := bind_eq_ok_iff.1 h
  obtain ⟨expressions, hexpressions, h⟩ := bind_eq_ok_iff.1 h
  obtain ⟨forced, hforced, h⟩ := bind_eq_ok_iff.1 h
  obtain ⟨own, hown, h⟩ := bind_eq_ok_iff.1 h
  obtain ⟨graph, -, h⟩ := bind_eq_ok_iff.1 h
  obtain rfl := Except.ok.inj h
  exact ⟨expressions, hroot, hexpressions, hforced, hown⟩

theorem mapM_check_filters {r : CheckedRequest} (h : p.check entity params naming scope = .ok r) :
    ∃ expressions, p.forced scope = .ok expressions ∧
      (expressions ++ naming.decompose params).mapM (p.compiler r.root naming).check =
        .ok r.filters := by
  obtain ⟨expressions, -, hexpressions, hforced, hown⟩ := check_eq_ok h
  refine ⟨expressions, hexpressions, mapM_eq_ok_iff.2 ?_⟩
  exact List.rel_append (mapM_eq_ok_iff.1 hforced) (mapM_eq_ok_iff.1 hown)

section

variable {σ Path Predicate : Type} [PredicateBuilder σ Path Predicate]

open PredicateBuilder

/-- The forced filters are refused before the request's own, and both before they are conjoined. -/
theorem predicate_fst (c : Compiler) (expressions : List FilterExpression) (params : Params)
    (s : σ) :
    (predicate c expressions params s).1 = do
      let forced ← expressions.mapM c.check
      let own ← (c.naming.decompose params).mapM c.check
      return combine (σ := σ) (conjoin σ none (build c.root forced s))
        (conjoin σ none (build c.root own (afterBuild c.root forced s))) := by
  unfold predicate Compiler.compile Compiler.compileAll
  cases hforced : expressions.mapM c.check with
  | error error =>
    obtain ⟨state, hrefused⟩ := Compiler.exists_compileOnto_eq_error hforced none s
    rw [hrefused]
    rfl
  | ok forced =>
    rw [Compiler.compileOnto_of_check_eq_ok hforced]
    cases hown : (c.naming.decompose params).mapM c.check with
    | error error =>
      obtain ⟨state, hrefused⟩ :=
        Compiler.exists_compileOnto_eq_error hown none (afterBuild c.root forced s)
      simp only [hrefused]
      rfl
    | ok own =>
      simp only [Compiler.compileOnto_of_check_eq_ok hown]
      rfl

theorem plan_fst_eq_bind {root : Schema} {expressions : List FilterExpression}
    (hroot : p.registry.schema entity = .ok root) (hforced : p.forced scope = .ok expressions)
    (s : σ) :
    (p.plan entity params naming scope s).1 = do
      let predicate ← (predicate (p.compiler root naming) expressions params s).1
      let graph ← FetchGraph.ofParams p.registry root params
      return (⟨predicate, graph⟩ : SearchPlan Predicate) := by
  unfold plan
  simp only [hroot, hforced]
  rcases predicate (p.compiler root naming) expressions params s with ⟨outcome, state⟩
  cases outcome with
  | error error => rfl
  | ok predicate => cases FetchGraph.ofParams p.registry root params <;> rfl

/-- **Planning is checking, then building**, for every builder in every state. -/
theorem plan_fst (s : σ) :
    (p.plan entity params naming scope s).1 =
      (p.check entity params naming scope).map fun r => r.plan s := by
  cases hroot : p.registry.schema entity with
  | error error => simp only [plan, check, hroot]; rfl
  | ok root =>
    cases hforced : p.forced scope with
    | error error => simp only [plan, check, hroot, hforced]; rfl
    | ok expressions =>
      -- from here on both sides are refused by the same check, or by none
      rw [plan_fst_eq_bind hroot hforced, predicate_fst, check, hroot, hforced]
      show (expressions.mapM (p.compiler root naming).check >>= _) >>= _ =
        Except.map _ (expressions.mapM (p.compiler root naming).check >>= _)
      cases expressions.mapM (p.compiler root naming).check with
      | error error => rfl
      | ok forced =>
        show ((naming.decompose params).mapM (p.compiler root naming).check >>= _) >>= _ =
          Except.map _ ((naming.decompose params).mapM (p.compiler root naming).check >>= _)
        cases (naming.decompose params).mapM (p.compiler root naming).check with
        | error error => rfl
        | ok own => cases FetchGraph.ofParams p.registry root params <;> rfl

theorem exists_check_of_plan_eq_ok {s : σ} {plan : SearchPlan Predicate}
    (h : (p.plan entity params naming scope s).1 = .ok plan) :
    ∃ r, p.check entity params naming scope = .ok r ∧ plan = r.plan s := by
  rw [plan_fst] at h
  cases hcheck : p.check entity params naming scope with
  | error error => simp [hcheck, Except.map] at h
  | ok r => exact ⟨r, rfl, by simpa [hcheck, Except.map] using h.symm⟩

end

end Planner

end QuerySieve
