import Mathlib.Data.List.Perm.Basic
import Mathlib.Data.String.Basic
import QuerySieve.Proofs.Text
import QuerySieve.Proofs.Typing

/-!
# QuerySieve.Proofs.Naming

**Both conventions decode what they encode.**

A request holds the parameters of its filters and others, in one map by name. `Naming.Writes` says
how filters are written so that nothing is mistaken for something else, and
`Writes.exists_of_mem_entries` is the heart of it: every parameter that counts as a filter is the
one that states a filter that was written. So the map gives back each filter once
(`Writes.selected_perm`), and its operator under its own name (`Writes.extract_filterName`).

What the two conventions give differs in order only, and so do the tests that are compiled from it
(`Describer.conjuncts_perm`).
-/

namespace QuerySieve

/-- A filter as it is written into a request. -/
structure WrittenFilter where
  /-- The path with its dots. -/
  path : String
  operator : Operator
  value : String
  deriving DecidableEq

/-- The filter that is meant. -/
def WrittenFilter.expression (f : WrittenFilter) : FilterExpression :=
  .ofField f.path f.operator f.value

namespace Naming

/-! ### Writing -/

/-- The name of the parameter that states a filter. -/
def filterName : Naming → WrittenFilter → String
  | v1, f => filterMark ++ f.path
  | v2, f => f.path ++ "_" ++ f.operator.name

/-- The parameters that a filter is written as. -/
def write : Naming → WrittenFilter → List (String × String)
  | v1, f => [(v1.filterName f, f.value), (v1.filterName f ++ operatorMark, f.operator.name)]
  | v2, f => [(v2.filterName f, f.value)]

/-- The path can be told from what the convention adds to it. -/
def Plain : Naming → WrittenFilter → Prop
  | v1, f => ¬ Text.endsWith operatorMark (v1.filterName f)
  | v2, f => '_' ∉ f.path.toList

/-- A parameter of this name has nothing to do with filters. -/
def Unrelated : Naming → String → Prop
  | v1, name => ¬ Text.startsWith filterMark name
  | v2, name => '_' ∉ name.toList

instance (convention : Naming) (f : WrittenFilter) : Decidable (convention.Plain f) :=
  match convention with
  | v1 => inferInstanceAs (Decidable (¬ _))
  | v2 => inferInstanceAs (Decidable (¬ _))

instance (convention : Naming) (name : String) : Decidable (convention.Unrelated name) :=
  match convention with
  | v1 => inferInstanceAs (Decidable (¬ _))
  | v2 => inferInstanceAs (Decidable (¬ _))

/-- The parameters are those of the filters, which are on different paths and not blank, and any
others that have nothing to do with filters, in any order. -/
structure Writes (convention : Naming) (fs : List WrittenFilter) (params : Params) : Prop where
  paths : (fs.map (·.path)).Nodup
  values : ∀ f ∈ fs, ¬ Text.isBlankText f.value
  plain : ∀ f ∈ fs, convention.Plain f
  written : ∃ others pairs : List (String × String),
    (∀ p ∈ others, convention.Unrelated p.1) ∧
      pairs.Perm (fs.flatMap convention.write ++ others) ∧ params = .ofList pairs

variable {convention : Naming} {f g : WrittenFilter} {fs : List WrittenFilter} {params : Params}
variable {name : String} {p : String × String}

/-! ### Names -/

theorem startsWith_append (start rest : String) : Text.startsWith start (start ++ rest) := by
  rw [Text.startsWith, String.toList_append, List.isPrefixOf_iff_prefix]
  exact List.prefix_append ..

theorem endsWith_append (rest tail : String) : Text.endsWith tail (rest ++ tail) := by
  rw [Text.endsWith, String.toList_append, List.isSuffixOf_iff_suffix]
  exact List.suffix_append ..

theorem hasChar_iff {c : Char} {s : String} : Text.hasChar c s ↔ c ∈ s.toList := by
  rw [Text.hasChar, List.contains_iff_mem]

theorem isFilter_filterName (h : convention.Plain f) :
    convention.isFilter (convention.filterName f) := by
  cases convention with
  | v1 =>
    have hstart : Text.startsWith filterMark (v1.filterName f) := startsWith_append ..
    have hend : ¬ Text.endsWith operatorMark (v1.filterName f) := h
    simp [isFilter, hstart, hend]
  | v2 =>
    refine hasChar_iff.2 ?_
    simp [filterName]

theorem not_isFilter_of_unrelated (h : convention.Unrelated name) : ¬ convention.isFilter name := by
  cases convention with
  | v1 =>
    have hstart : ¬ Text.startsWith filterMark name := h
    simp [isFilter, hstart]
  | v2 => exact mt hasChar_iff.1 h

theorem not_isFilter_companion (name : String) : ¬ v1.isFilter (name ++ operatorMark) := by
  simp [isFilter, endsWith_append]

theorem path_eq_of_filterName_eq (hf : convention.Plain f) (hg : convention.Plain g)
    (h : convention.filterName f = convention.filterName g) : f.path = g.path := by
  rw [← String.toList_inj] at h ⊢
  cases convention with
  | v1 => simpa [filterName] using h
  | v2 =>
    -- the path ends at the first mark
    simp only [filterName, String.toList_append, List.append_assoc] at h
    exact (Text.append_cons_inj hf hg h).1

namespace Writes

/-! ### What is written is found -/

theorem eq_of_path_eq (h : convention.Writes fs params) (hf : f ∈ fs) (hg : g ∈ fs)
    (hpath : f.path = g.path) : f = g :=
  List.inj_on_of_nodup_map h.paths hf hg hpath

/-- Every parameter comes from a filter or has nothing to do with filters. -/
theorem cases_of_mem_entries (h : convention.Writes fs params) (hp : p ∈ params.entries) :
    (∃ f ∈ fs, p ∈ convention.write f) ∨ convention.Unrelated p.1 := by
  obtain ⟨others, pairs, hothers, hperm, rfl⟩ := h.written
  rcases List.mem_append.1 (hperm.mem_iff.1 (Entries.mem_of_mem_ofList hp)) with hwritten | hother
  · exact .inl (List.mem_flatMap.1 hwritten)
  · exact .inr (hothers p hother)

theorem exists_mem_entries (h : convention.Writes fs params) (hf : f ∈ fs)
    (hp : p ∈ convention.write f) : ∃ value, (p.1, value) ∈ params.entries := by
  obtain ⟨others, pairs, -, hperm, rfl⟩ := h.written
  have hpair : (p.1, p.2) ∈ pairs :=
    hperm.mem_iff.2 (List.mem_append_left _ (List.mem_flatMap.2 ⟨f, hf, hp⟩))
  exact Entries.exists_mem_ofList hpair

/-- What counts as a filter states one that was written. -/
theorem exists_of_mem_entries (h : convention.Writes fs params) (hp : p ∈ params.entries)
    (hfilter : convention.isFilter p.1) :
    ∃ f ∈ fs, p = (convention.filterName f, f.value) := by
  rcases h.cases_of_mem_entries hp with ⟨f, hf, hwritten⟩ | hother
  · cases convention with
    | v1 =>
      rcases List.mem_cons.1 hwritten with rfl | hcompanion
      · exact ⟨f, hf, rfl⟩
      · rw [List.mem_singleton.1 hcompanion] at hfilter
        exact absurd hfilter (not_isFilter_companion _)
    | v2 => exact ⟨f, hf, List.mem_singleton.1 hwritten⟩
  · exact absurd hfilter (not_isFilter_of_unrelated hother)

theorem mem_entries (h : convention.Writes fs params) (hf : f ∈ fs) :
    (convention.filterName f, f.value) ∈ params.entries := by
  have hstated : (convention.filterName f, f.value) ∈ convention.write f := by
    cases convention <;> exact List.mem_cons_self ..
  obtain ⟨value, hvalue⟩ := h.exists_mem_entries hf hstated
  obtain ⟨g, hg, heq⟩ := h.exists_of_mem_entries hvalue (isFilter_filterName (h.plain f hf))
  obtain ⟨hname, rfl⟩ := Prod.mk.inj heq
  rwa [h.eq_of_path_eq hf hg (path_eq_of_filterName_eq (h.plain f hf) (h.plain g hg) hname)]
    at hvalue ⊢

/-- The operator of a filter is the value of its companion and of no other's. -/
theorem get?_companion (h : v1.Writes fs params) (hf : f ∈ fs) :
    params.get? (v1.filterName f ++ operatorMark) = some f.operator.name := by
  have hcompanion : (v1.filterName f ++ operatorMark, f.operator.name) ∈ v1.write f :=
    List.mem_cons_of_mem _ (List.mem_singleton_self _)
  obtain ⟨value, hvalue⟩ := h.exists_mem_entries hf hcompanion
  rw [Dict.get?_eq_some_iff]
  rcases h.cases_of_mem_entries hvalue with ⟨g, hg, hwritten⟩ | hother
  · rcases List.mem_cons.1 hwritten with hstated | hwritten
    · refine absurd ?_ (h.plain g hg)
      rw [← (Prod.mk.inj hstated).1]
      exact endsWith_append ..
    · obtain ⟨hname, rfl⟩ := Prod.mk.inj (List.mem_singleton.1 hwritten)
      have hpath : f.path = g.path := by
        rw [← String.toList_inj] at hname ⊢
        simpa [filterName] using hname
      rwa [h.eq_of_path_eq hf hg hpath] at hvalue ⊢
  · refine absurd ?_ hother
    rw [filterName, String.append_assoc]
    exact startsWith_append ..

theorem extract_filterName (h : convention.Writes fs params) (hf : f ∈ fs) :
    convention.extract (convention.filterName f) params = (f.path, f.operator.name) := by
  cases convention with
  | v1 =>
    have hdrop : Text.dropStart? filterMark (v1.filterName f) = some f.path := by
      have hstart : filterMark.toList.isPrefixOf (v1.filterName f).toList := startsWith_append ..
      rw [Text.dropStart?, if_pos hstart]
      simp [filterName]
    simp [extract, hdrop, h.get?_companion hf]
  | v2 =>
    have hpath : '_' ∉ f.path.toList := h.plain f hf
    have hoperator : '_' ∉ f.operator.name.toList := by cases f.operator <;> decide
    have hsplit : Text.split '_' (v2.filterName f) = [f.path, f.operator.name] := by
      have hchars : (v2.filterName f).toList =
          f.path.toList ++ '_' :: f.operator.name.toList := by simp [filterName]
      rw [Text.split, hchars, Text.splitChars_append_cons hpath,
        Text.splitChars_of_not_mem hoperator]
      simp
    simp [extract, hsplit]

/-! ### The filters of a request -/

theorem pairwise_selected (convention : Naming) (params : Params) :
    (convention.selected params).Pairwise fun p q => p.1 < q.1 :=
  List.Pairwise.filter _ params.ascending

theorem nodup_selected (convention : Naming) (params : Params) :
    (convention.selected params).Nodup := by
  refine (pairwise_selected convention params).imp fun hlt heq => ?_
  rw [heq] at hlt
  exact String.lt_irrefl _ hlt

theorem mem_selected_iff (h : convention.Writes fs params) :
    p ∈ convention.selected params ↔ p ∈ fs.map fun f => (convention.filterName f, f.value) := by
  rw [selected, List.mem_filter, List.mem_map]
  constructor
  · rintro ⟨hp, hfilter⟩
    rw [Bool.and_eq_true] at hfilter
    obtain ⟨f, hf, rfl⟩ := h.exists_of_mem_entries hp hfilter.1
    exact ⟨f, hf, rfl⟩
  · rintro ⟨f, hf, rfl⟩
    have hblank := h.values f hf
    exact ⟨h.mem_entries hf, by simp [isFilter_filterName (h.plain f hf), hblank]⟩

theorem selected_perm (h : convention.Writes fs params) :
    (convention.selected params).Perm (fs.map fun f => (convention.filterName f, f.value)) := by
  refine (List.perm_ext_iff_of_nodup (nodup_selected convention params) ?_).2
    fun p => h.mem_selected_iff
  refine (List.nodup_map_iff_inj_on h.paths.of_map).2 fun f hf g hg heq => ?_
  exact h.eq_of_path_eq hf hg
    (path_eq_of_filterName_eq (h.plain f hf) (h.plain g hg) (Prod.mk.inj heq).1)

/-- The filters that were written are what a request is taken apart into. -/
theorem decompose_perm (h : convention.Writes fs params) :
    (convention.decompose params).Perm (fs.map WrittenFilter.expression) := by
  refine (h.selected_perm.map _).trans (List.Perm.of_eq ?_)
  rw [List.map_map]
  refine List.map_congr_left fun f hf => ?_
  simp [h.extract_filterName hf, WrittenFilter.expression]

/-- In the first convention all names of filters start alike, so that their order is that of the
paths. -/
theorem pairwise_decompose (h : v1.Writes fs params) :
    (v1.decompose params).Pairwise fun d e => d.field < e.field := by
  refine List.pairwise_map.2 ((pairwise_selected v1 params).imp_of_mem fun hp hq hlt => ?_)
  obtain ⟨f, hf, rfl⟩ := List.mem_map.1 (h.mem_selected_iff.1 hp)
  obtain ⟨g, hg, rfl⟩ := List.mem_map.1 (h.mem_selected_iff.1 hq)
  simp only [h.extract_filterName hf, h.extract_filterName hg, FilterExpression.field_ofField]
  rw [String.lt_iff_toList_lt] at hlt ⊢
  simpa [filterName, filterMark, List.cons_lt_cons_iff] using hlt

end Writes

/-- Filters on different paths that the convention can tell apart can be written, whatever else is
in the request. -/
theorem writes_ofList {others : List (String × String)} (hpaths : (fs.map (·.path)).Nodup)
    (hvalues : ∀ f ∈ fs, ¬ Text.isBlankText f.value) (hplain : ∀ f ∈ fs, convention.Plain f)
    (hothers : ∀ p ∈ others, convention.Unrelated p.1) :
    convention.Writes fs (.ofList (fs.flatMap convention.write ++ others)) :=
  ⟨hpaths, hvalues, hplain, others, _, hothers, .refl _, rfl⟩

end Naming

/-! ### What is compiled -/

/-- Once a request is taken apart, the convention plays no part. -/
theorem Compiler.compileAll_naming (registry : Registry) (root : Schema) (first second : Naming)
    (strict : Bool) (es : List FilterExpression) (s : Describer) :
    ((⟨registry, root, first, strict⟩ : Compiler).compileAll es s).1 =
      ((⟨registry, root, second, strict⟩ : Compiler).compileAll es s).1 := by
  rw [compileAll_fst, compileAll_fst]
  rfl

/-- Filters in another order are described if they are described in this one, and by the same
tests in another order. -/
theorem Describer.conjuncts_perm {c : Compiler} {es others : List FilterExpression}
    (h : es.Perm others) {s : Describer} {result : Option Description}
    (hok : (c.compileAll es s).1 = .ok result) (t : Describer) :
    ∃ other, (c.compileAll others t).1 = .ok other ∧
      ((result.map Description.conjuncts).getD []).Perm
        ((other.map Description.conjuncts).getD []) := by
  obtain ⟨fs, hcheck, rfl⟩ := Compiler.compileAll_eq_ok_iff.1 hok
  obtain ⟨gs, hgs, hperm⟩ := List.perm_comp_forall₂ h.symm (mapM_eq_ok_iff.1 hcheck)
  refine ⟨_, Compiler.compileAll_eq_ok_iff.2 ⟨gs, mapM_eq_ok_iff.2 hgs, rfl⟩, ?_⟩
  rw [conjuncts_conjoin_build, conjuncts_conjoin_build]
  exact hperm.symm.map _

namespace Naming

/-- Both outcomes are failures, or both describe the same tests in some order. -/
structure SameTests (first second : Except FilterError (Option Description)) : Prop where
  succeeds : (∃ p, first = .ok p) ↔ ∃ q, second = .ok q
  conjuncts : ∀ p q, first = .ok p → second = .ok q →
    ((p.map Description.conjuncts).getD []).Perm ((q.map Description.conjuncts).getD [])

theorem sameTests_of_perm {c : Compiler} {es others : List FilterExpression} (h : es.Perm others)
    (s t : Describer) : SameTests (c.compileAll es s).1 (c.compileAll others t).1 where
  succeeds := by
    constructor
    · rintro ⟨p, hp⟩
      obtain ⟨q, hq, -⟩ := Describer.conjuncts_perm h hp t
      exact ⟨q, hq⟩
    · rintro ⟨q, hq⟩
      obtain ⟨p, hp, -⟩ := Describer.conjuncts_perm h.symm hq s
      exact ⟨p, hp⟩
  conjuncts := by
    intro p q hp hq
    obtain ⟨other, hother, hperm⟩ := Describer.conjuncts_perm h hp t
    obtain rfl := Except.ok.inj (hother.symm.trans hq)
    exact hperm

/-- **Both conventions decode what they encode.** Filters on different paths, with values that are
not blank, are written into a request between other parameters. Taken apart by the convention that
they were written by, the request gives these filters and no others, each once and on the path as it
was written; by the first convention they come in the order of their paths. Written by both
conventions they compile to the same tests in some order, or by neither. -/
theorem conventions_decode_what_they_encode (fs : List WrittenFilter) :
    (∀ f ∈ fs, f.expression.field = f.path) ∧
    (∀ params, v1.Writes fs params →
      (v1.decompose params).Perm (fs.map WrittenFilter.expression) ∧
        (v1.decompose params).Pairwise fun d e => d.field < e.field) ∧
    (∀ params, v2.Writes fs params →
      (v2.decompose params).Perm (fs.map WrittenFilter.expression)) ∧
    ∀ params others, v1.Writes fs params → v2.Writes fs others →
      (v1.decompose params).Perm (v2.decompose others) ∧
        ∀ (registry : Registry) (root : Schema) (strict : Bool) (s t : Describer),
          SameTests ((⟨registry, root, v1, strict⟩ : Compiler).compile params s).1
            ((⟨registry, root, v2, strict⟩ : Compiler).compile others t).1 := by
  refine ⟨fun f _ => FilterExpression.field_ofField .., fun params h =>
    ⟨h.decompose_perm, h.pairwise_decompose⟩, fun params h => h.decompose_perm,
    fun params others hfirst hsecond => ?_⟩
  have hperm := hfirst.decompose_perm.trans hsecond.decompose_perm.symm
  refine ⟨hperm, fun registry root strict s t => ?_⟩
  rw [Compiler.compile, Compiler.compile, Compiler.compileAll_naming registry root v2 v1]
  exact sameTests_of_perm hperm s t

/-! ### Two filters in both conventions -/

/-- Orders in a range of totals, of one customer. -/
def orderedFilters : List WrittenFilter :=
  [⟨"orders.total", .between, "20,30"⟩, ⟨"id", .eq, "1"⟩]

/-- A request with these filters and the number of a page. -/
def orderedRequest (convention : Naming) : Params :=
  .ofList (orderedFilters.flatMap convention.write ++ [("page", "0")])

theorem writes_orderedRequest (convention : Naming) :
    convention.Writes orderedFilters (orderedRequest convention) := by
  refine writes_ofList (by decide) (by decide) ?_ ?_
  · cases convention <;> decide
  · cases convention <;> decide

/-- Both requests give the two filters, and these are described alike. -/
theorem conventions_decode_what_they_encode_of_orders :
    v1.Writes orderedFilters (orderedRequest v1) ∧ v2.Writes orderedFilters (orderedRequest v2) ∧
      (v1.decompose (orderedRequest v1)).Perm (orderedFilters.map WrittenFilter.expression) ∧
      (v2.decompose (orderedRequest v2)).Perm (orderedFilters.map WrittenFilter.expression) ∧
      ∃ p q : Option Description,
        ((⟨Sql.shopCompiler.registry, Sql.shopCompiler.root, v1, true⟩ : Compiler).compile
          (orderedRequest v1) ({} : Describer)).1 = .ok p ∧
        ((⟨Sql.shopCompiler.registry, Sql.shopCompiler.root, v2, true⟩ : Compiler).compile
          (orderedRequest v2) ({} : Describer)).1 = .ok q ∧
        ((p.map Description.conjuncts).getD []).Perm ((q.map Description.conjuncts).getD []) ∧
        ((p.map Description.conjuncts).getD []).length = 2 := by
  have hfirst := writes_orderedRequest v1
  have hsecond := writes_orderedRequest v2
  obtain ⟨-, hdecoded, hdecoded', hboth⟩ := conventions_decode_what_they_encode orderedFilters
  obtain ⟨hsucceeds, hconjuncts⟩ := (hboth _ _ hfirst hsecond).2 Sql.shopCompiler.registry
    Sql.shopCompiler.root true {} {}
  have hp : ((⟨Sql.shopCompiler.registry, Sql.shopCompiler.root, v1, true⟩ : Compiler).compile
      (orderedRequest v1) ({} : Describer)).1 =
      .ok (some (.and (.leaf ⟨[], some "id"⟩ (.equal (.long 1)))
        (.leaf ⟨["orders"], some "total"⟩ (.between 20 30)))) := by decide +kernel
  obtain ⟨q, hq⟩ := hsucceeds.1 ⟨_, hp⟩
  exact ⟨hfirst, hsecond, (hdecoded _ hfirst).1, hdecoded' _ hsecond, _, q, hp, hq,
    hconjuncts _ _ hp hq, rfl⟩

end Naming

end QuerySieve
