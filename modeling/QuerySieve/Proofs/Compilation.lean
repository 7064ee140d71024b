import QuerySieve.Compiler
import QuerySieve.Proofs.Resolution

/-!
# QuerySieve.Proofs.Compilation

What a successful **compilation** has done, for any builder of predicates.

The compiler threads the builder's state through resolution, coercion and conjunction. The lemmas
here take one step of it apart (`compileOne_eq_ok_iff`, `compileOnto_cons_eq_ok_iff`), so that facts
about a builder are inductions over the filters and never open the compiler again.
-/

namespace QuerySieve

namespace Compiler

variable {σ Path Predicate : Type} [PredicateBuilder σ Path Predicate]
variable {c : Compiler} {e : FilterExpression} {s : σ}

/-- The filter's path leads to a field, and the test is the one that the filter makes of it. -/
def WellTyped (c : Compiler) (e : FilterExpression) (resolved : ResolvedPath)
    (comparison : Comparison Value) : Prop :=
  c.registry.Resolves c.root e.path resolved ∧
    e.comparison c.strictBooleans resolved.type = .ok comparison

/-- One filter compiles exactly if it is well-typed, to the test of the field that its path leads
to. -/
theorem compileOne_eq_ok_iff {predicate : Predicate} :
    (c.compileOne e s).1 = .ok predicate ↔ ∃ resolved comparison,
      c.WellTyped e resolved comparison ∧
        predicate =
          PredicateBuilder.test σ (PredicateBuilder.reach c.root resolved s).1 comparison := by
  unfold compileOne
  cases hresolve : c.registry.resolve c.root e.path with
  | error error =>
    have hnone : ∀ resolved, ¬ c.registry.Resolves c.root e.path resolved := fun resolved h =>
      absurd (hresolve.symm.trans (Registry.resolve_eq_ok_iff.2 h)) (by simp)
    simp [WellTyped, hnone]
  | ok resolved =>
    have hresolves := Registry.resolve_eq_ok_iff.1 hresolve
    constructor
    · intro h
      cases hcomparison : e.comparison c.strictBooleans resolved.type with
      | error error => simp [hcomparison, Except.map] at h
      | ok comparison =>
        simp only [hcomparison, Except.map, Except.ok.injEq] at h
        exact ⟨resolved, comparison, ⟨hresolves, hcomparison⟩, h.symm⟩
    · intro h
      obtain ⟨other, comparison, ⟨hother, hcomparison⟩, rfl⟩ := h
      obtain rfl := hresolves.unique hother
      simp [hcomparison, Except.map]

/-- A filter that compiles leaves the state in which its path was reached. -/
theorem compileOne_state {resolved : ResolvedPath}
    (h : c.registry.Resolves c.root e.path resolved) :
    (c.compileOne e s).2 = (PredicateBuilder.reach c.root resolved s).2 := by
  unfold compileOne
  rw [Registry.resolve_eq_ok_iff.2 h]

@[simp] theorem compileOnto_nil (acc : Option Predicate) :
    c.compileOnto acc [] s = (.ok acc, s) := rfl

/-- The filters compile one after the other, each onto what the ones before it gave. -/
theorem compileOnto_cons_eq_ok_iff {acc result : Option Predicate} {es : List FilterExpression} :
    (c.compileOnto acc (e :: es) s).1 = .ok result ↔ ∃ predicate : Predicate,
      (c.compileOne e s).1 = .ok predicate ∧
        (c.compileOnto (some (PredicateBuilder.andOption (σ := σ) acc predicate)) es
          (c.compileOne e s).2).1 = .ok result := by
  rw [compileOnto]
  rcases c.compileOne e s with ⟨outcome, state⟩
  cases outcome with
  | error error => simp
  | ok predicate => simp

/-- One filter alone gives its own predicate. -/
theorem compileAll_singleton {predicate : Predicate}
    (h : (c.compileOne e s).1 = .ok predicate) :
    c.compileAll [e] s = (.ok (some predicate), (c.compileOne e s).2) := by
  rw [compileAll, compileOnto]
  rcases hone : c.compileOne e s with ⟨outcome, state⟩
  obtain rfl : outcome = .ok predicate := by rw [hone] at h; exact h
  rfl

theorem compileAll_singleton_eq_ok_iff {result : Option Predicate} :
    (c.compileAll [e] s).1 = .ok result ↔
      ∃ predicate : Predicate, (c.compileOne e s).1 = .ok predicate ∧ result = some predicate := by
  unfold compileAll
  rw [compileOnto_cons_eq_ok_iff]
  simp [PredicateBuilder.andOption, eq_comm]

end Compiler

end QuerySieve
