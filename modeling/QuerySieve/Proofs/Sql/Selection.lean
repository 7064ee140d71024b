import QuerySieve.Proofs.Compilation
import QuerySieve.Proofs.Sql.Chain

/-!
# QuerySieve.Proofs.Sql.Selection

**The statement means what the filters say.**

All filters of a request end up in one flat join. The main theorem `selects_iff_satisfies` says that
a root row is found by it exactly if *each* filter is satisfied by a chain of rows of its own: two
filters under one to-many relation may be met by different rows.

The invariant of the compilation is `Predicate.Within`: a predicate keeps to its own names, they all
differ, and they carry the number of an entry opened so far. One filter adds an entry
(`compileOnto_step`), whose number is new, so that `Predicate.meets_conj` applies at every step; the
run lemma `compileOnto_spec` is the induction over the filters.
-/

namespace QuerySieve

/-- The relations of an entity have names that keep aliases apart. -/
def Schema.PlainRelations (s : Schema) : Prop :=
  ∀ field ∈ s.fieldList, field.relation?.isSome → Sql.PlainName field.name

instance (s : Schema) : Decidable s.PlainRelations :=
  inferInstanceAs (Decidable (∀ field ∈ s.fieldList, field.relation?.isSome →
    Sql.PlainName field.name))

theorem Registry.Resolves.plainName {reg : Registry} {current : Schema} {path : List String}
    {resolved : ResolvedPath} (h : reg.Resolves current path resolved)
    (hcurrent : current.PlainRelations) (hreg : ∀ schema ∈ reg.schemas, schema.PlainRelations) :
    ∀ hop ∈ resolved.hops, Sql.PlainName hop.name := by
  induction h with
  | leaf => simp
  | hop hfield hrelation htarget _ ih =>
    intro hop hmem
    rcases List.mem_cons.1 hmem with rfl | hmem
    · obtain ⟨hlist, rfl⟩ := Schema.mem_fieldList hfield
      exact hcurrent _ hlist (by simp [hrelation])
    · exact ih (hreg _ (mem_schemas_of_get? htarget)) hop hmem

namespace Sql

variable {V : Type} {db : Store V}

/-- A row satisfies a filter: a chain of rows leads from it along the filter's path to a row whose
column passes the filter's test. -/
def Satisfies (c : Compiler) (db : Store V) (row : Row V) (e : FilterExpression) : Prop :=
  ∃ leaf type column comparison last,
    Leads c.registry db c.root row e.path leaf last ∧ leaf.valueType? = some type ∧
      leaf.column? = some column ∧ e.comparison c.strictBooleans type = .ok comparison ∧
        db.passes (last.get? column) (comparison.map Param.ofValue)

/-! ### The predicate of one entry -/

/-- The predicate of one filter in an entry of this number. -/
def entryPredicate (root : Schema) (entry : Nat) (resolved : ResolvedPath)
    (comparison : Comparison Value) : Predicate :=
  ⟨.test ⟨endAlias entry root.table "" resolved.hops, resolved.leaf.column?.getD "*"⟩
      (comparison.map Param.ofValue),
    entryJoins entry root.table "" resolved.hops⟩

theorem follow_eq_foldl (hops : List Hop) (path : Path) (s : Builder) :
    PredicateBuilder.follow hops path s = (hops.foldl Path.follow path, s) := by
  induction hops generalizing path with
  | nil => rfl
  | cons hop hops ih => exact ih (path.follow hop)

theorem reach_eq (root : Schema) (resolved : ResolvedPath) (s : Builder) :
    PredicateBuilder.reach root resolved s =
      ((resolved.hops.foldl Path.follow (Path.start root (s.entries + 1))).field resolved.leaf,
        ⟨s.entries + 1⟩) := by
  unfold PredicateBuilder.reach
  have hroot : PredicateBuilder.root root s =
    (Path.start root (s.entries + 1), ⟨s.entries + 1⟩) := rfl
  rw [hroot]
  simp only [follow_eq_foldl]
  rfl

theorem reach_snd (root : Schema) (resolved : ResolvedPath) (s : Builder) :
    (PredicateBuilder.reach root resolved s).2 = ⟨s.entries + 1⟩ := by
  rw [reach_eq]

/-- The root's name is not an alias. -/
theorem not_mem_aliases_entryJoins {root : String} (hroot : ¬ IsGenerated root) (entry : Nat)
    (source relations : String) (hops : List Hop) :
    root ∉ aliases (entryJoins entry source relations hops) := by
  intro hmem
  obtain ⟨text, rfl⟩ := exists_eq_joinAlias_of_mem hmem
  exact hroot (isGenerated_joinAlias entry text)

variable {root : Schema} {resolved : ResolvedPath} {comparison : Comparison Value}

/-- The path of a filter carries the joins of its entry and ends at their last alias. -/
theorem leaf_reach (hnames : ∀ hop ∈ resolved.hops, PlainName hop.name) (s : Builder) :
    Predicate.leaf (PredicateBuilder.reach root resolved s).1 comparison =
      entryPredicate root (s.entries + 1) resolved comparison := by
  have hnodup := nodup_aliases_entryJoins hnames (s.entries + 1) root.table ""
  obtain ⟨hjoins, halias⟩ := @foldl_follow (Path.start root (s.entries + 1)) resolved.hops hnodup
  rw [reach_eq, Predicate.leaf, entryPredicate]
  simp only [Path.tested, Path.field]
  rw [hjoins, halias]
  rfl

theorem wellScoped_entryPredicate (entry : Nat) :
    (entryPredicate root entry resolved comparison).WellScoped root.table where
  joins := scoped_entryJoins entry "" resolved.hops (List.mem_singleton_self _)
  condition := by
    intro leaf hleaf
    rw [List.mem_singleton.1 hleaf]
    exact endAlias_mem entry root.table "" resolved.hops

/-- A row meets the predicate of an entry exactly if a chain leads from it to a row that passes the
test. -/
theorem meets_entryPredicate (hnames : ∀ hop ∈ resolved.hops, PlainName hop.name)
    (hroot : ¬ IsGenerated root.table) (entry : Nat) (row : Row V) :
    (entryPredicate root entry resolved comparison).Meets db root.table row ↔
      ∃ last, Chain db resolved.hops row last ∧
        db.passes (last.get? (resolved.leaf.column?.getD "*")) (comparison.map Param.ofValue) := by
  have hsource := not_mem_aliases_entryJoins hroot entry root.table "" resolved.hops
  have hnodup := nodup_aliases_entryJoins hnames entry root.table ""
  have hstart := Tuple.row?_cons_self root.table row []
  constructor
  · intro h
    obtain ⟨u, hu, hpasses⟩ := h
    -- the path ends at the root itself or at one of its joins, so there is a row to test
    have hend : ∃ last, u.row? (endAlias entry root.table "" resolved.hops) = some last := by
      refine Store.exists_row?_of_mem_follow ?_ hu
      refine (List.mem_append.1 (endAlias_mem entry root.table "" resolved.hops)).imp_right ?_
      intro hhere
      rw [List.mem_singleton.1 hhere]
      exact ⟨row, hstart⟩
    obtain ⟨last, hlast⟩ := hend
    refine ⟨last, (exists_mem_follow_iff hstart hsource hnodup).1 ⟨u, hu, hlast⟩, ?_⟩
    rw [← Tuple.cell_of_row? hlast]
    exact hpasses
  · intro h
    obtain ⟨last, hchain, hpasses⟩ := h
    obtain ⟨u, hu, hlast⟩ := (exists_mem_follow_iff hstart hsource hnodup).2 hchain
    refine ⟨u, hu, ?_⟩
    rw [← Tuple.cell_of_row? hlast] at hpasses
    exact hpasses

/-! ### The invariant -/

/-- The predicate keeps to its own names, which differ and carry the numbers of entries opened so
far. -/
structure Predicate.Within (root : String) (entries : Nat) (p : Predicate) : Prop where
  wellScoped : p.WellScoped root
  nodup : (aliases p.joins).Nodup
  numbered : ∀ name ∈ aliases p.joins, ∃ entry ≤ entries, ∃ text, name = joinAlias entry text

theorem Predicate.Within.root_not_mem {root : String} {entries : Nat} {p : Predicate}
    (h : p.Within root entries) (hroot : ¬ IsGenerated root) : root ∉ aliases p.joins := by
  intro hmem
  obtain ⟨entry, -, text, rfl⟩ := h.numbered _ hmem
  exact hroot (isGenerated_joinAlias entry text)

theorem within_entryPredicate (hnames : ∀ hop ∈ resolved.hops, PlainName hop.name) (entry : Nat) :
    (entryPredicate root entry resolved comparison).Within root.table entry where
  wellScoped := wellScoped_entryPredicate entry
  nodup := nodup_aliases_entryJoins hnames entry root.table ""
  numbered := by
    intro name hname
    obtain ⟨text, rfl⟩ := exists_eq_joinAlias_of_mem hname
    exact ⟨entry, Nat.le_refl entry, text, rfl⟩

/-- A new entry shares no alias with the entries before it. -/
theorem apart_entryPredicate {entries : Nat} {p : Predicate} (hp : p.Within root.table entries)
    (hroot : ¬ IsGenerated root.table) (hnames : ∀ hop ∈ resolved.hops, PlainName hop.name) :
    Predicate.Apart root.table p (entryPredicate root (entries + 1) resolved comparison) := by
  have hnew := nodup_aliases_entryJoins hnames (entries + 1) root.table ""
  unfold Predicate.Apart
  rw [aliases_append]
  refine List.nodup_cons.2 ⟨fun hmem => ?_, List.nodup_append.2 ⟨hp.nodup, hnew, ?_⟩⟩
  · rcases List.mem_append.1 hmem with hold | hnew
    · exact hp.root_not_mem hroot hold
    · exact not_mem_aliases_entryJoins hroot _ _ _ _ hnew
  · intro name hold other hother heq
    subst heq
    -- an alias of both would carry two numbers
    obtain ⟨entry, hle, text, rfl⟩ := hp.numbered name hold
    obtain ⟨text', heq⟩ := exists_eq_joinAlias_of_mem hother
    have hnumber := (joinAlias_inj heq).1
    omega

theorem within_conj_entryPredicate {entries : Nat} {p : Predicate}
    (hp : p.Within root.table entries) (hroot : ¬ IsGenerated root.table)
    (hnames : ∀ hop ∈ resolved.hops, PlainName hop.name) :
    (p.conj (entryPredicate root (entries + 1) resolved comparison)).Within root.table
      (entries + 1) := by
  have hapart : Predicate.Apart root.table p
      (entryPredicate root (entries + 1) resolved comparison) :=
    apart_entryPredicate hp hroot hnames
  refine ⟨Predicate.wellScoped_conj hp.wellScoped (wellScoped_entryPredicate _) hapart, ?_, ?_⟩
  · rw [Predicate.joins_conj hapart]
    exact (List.nodup_cons.1 hapart).2
  · rw [Predicate.joins_conj hapart, aliases_append]
    intro name hname
    rcases List.mem_append.1 hname with hold | hnew
    · obtain ⟨entry, hle, text, rfl⟩ := hp.numbered name hold
      exact ⟨entry, by omega, text, rfl⟩
    · exact (within_entryPredicate hnames (entries + 1)).numbered name hnew

/-! ### Compiling -/

variable {c : Compiler}

theorem satisfies_iff_chain {e : FilterExpression} (h : c.WellTyped e resolved comparison)
    (row : Row V) :
    Satisfies c db row e ↔ ∃ last, Chain db resolved.hops row last ∧
      db.passes (last.get? (resolved.leaf.column?.getD "*")) (comparison.map Param.ofValue) := by
  obtain ⟨hresolves, hcomparison⟩ := h
  constructor
  · intro hsatisfies
    obtain ⟨leaf, type, column, other, last, hleads, htype, hcolumn, hother, hpasses⟩ := hsatisfies
    obtain ⟨rfl, hchain⟩ := (leads_iff_chain hresolves).1 hleads
    obtain rfl : type = resolved.type :=
      Option.some.inj (htype.symm.trans hresolves.valueType?_leaf)
    obtain rfl : other = comparison := Except.ok.inj (hother.symm.trans hcomparison)
    exact ⟨last, hchain, by rw [hcolumn]; exact hpasses⟩
  · intro hchain
    obtain ⟨last, hchain, hpasses⟩ := hchain
    obtain ⟨column, hcolumn⟩ := hresolves.exists_column
    rw [hcolumn] at hpasses
    exact ⟨_, _, column, comparison, last, (leads_iff_chain hresolves).2 ⟨rfl, hchain⟩,
      hresolves.valueType?_leaf, hcolumn, hcomparison, hpasses⟩

/-- The model and the root keep the aliases of every path apart. -/
structure Unambiguous (c : Compiler) : Prop where
  root : ¬ IsGenerated c.root.table
  names : ∀ schema, schema = c.root ∨ schema ∈ c.registry.schemas → schema.PlainRelations

theorem Unambiguous.plainName {e : FilterExpression} (hc : Unambiguous c)
    (h : c.WellTyped e resolved comparison) : ∀ hop ∈ resolved.hops, PlainName hop.name :=
  h.1.plainName (hc.names c.root (.inl rfl)) fun schema hmem => hc.names schema (.inr hmem)

/-- **Step.** One more filter keeps the invariant and narrows the rows down to those that satisfy
it. -/
theorem compileOnto_step {acc result : Option Predicate} {e : FilterExpression}
    {es : List FilterExpression} {s : Builder} (hc : Unambiguous c)
    (hacc : ∀ p ∈ acc, p.Within c.root.table s.entries)
    (hok : (c.compileOnto acc (e :: es) s).1 = .ok result) :
    ∃ p : Predicate, p.Within c.root.table (s.entries + 1) ∧
      (∀ (db : Store V) (row : Row V), p.Meets db c.root.table row ↔
        (∀ q ∈ acc, q.Meets db c.root.table row) ∧ Satisfies c db row e) ∧
      (c.compileOnto (some p) es (⟨s.entries + 1⟩ : Builder)).1 = .ok result := by
  obtain ⟨predicate, hone, hrest⟩ := Compiler.compileOnto_cons_eq_ok_iff.1 hok
  obtain ⟨resolved, comparison, htyped, rfl⟩ := Compiler.compileOne_eq_ok_iff.1 hone
  have hnames := hc.plainName htyped
  have hmeets : ∀ (db : Store V) (row : Row V),
      (entryPredicate c.root (s.entries + 1) resolved comparison).Meets db c.root.table row ↔
        Satisfies c db row e := fun db row =>
    (meets_entryPredicate hnames hc.root _ row).trans (satisfies_iff_chain htyped row).symm
  -- the filter opens the next entry, and the state counts it
  rw [Compiler.compileOne_state htyped.1,
    show PredicateBuilder.test Builder (PredicateBuilder.reach c.root resolved s).1 comparison =
      entryPredicate c.root (s.entries + 1) resolved comparison from leaf_reach hnames s,
    reach_eq] at hrest
  cases acc with
  | none => exact ⟨_, within_entryPredicate hnames _, fun db row => by simp [hmeets], hrest⟩
  | some q =>
    have hq := hacc q rfl
    refine ⟨_, within_conj_entryPredicate hq hc.root hnames, fun db row => ?_, hrest⟩
    rw [Predicate.meets_conj hq.wellScoped (wellScoped_entryPredicate _)
      (apart_entryPredicate hq hc.root hnames), hmeets]
    simp

/-- **Run.** A row meets what is compiled exactly if it met what was there and satisfies every
filter. -/
theorem compileOnto_spec {acc result : Option Predicate} {es : List FilterExpression} {s : Builder}
    (hc : Unambiguous c) (hacc : ∀ p ∈ acc, p.Within c.root.table s.entries)
    (hok : (c.compileOnto acc es s).1 = .ok result) :
    (∀ p ∈ result, ∃ entries, p.Within c.root.table entries) ∧
      ∀ (db : Store V) (row : Row V), (∀ p ∈ result, p.Meets db c.root.table row) ↔
        (∀ p ∈ acc, p.Meets db c.root.table row) ∧ ∀ e ∈ es, Satisfies c db row e := by
  induction es generalizing acc s with
  | nil =>
    obtain rfl := Except.ok.inj hok
    exact ⟨fun p hp => ⟨s.entries, hacc p hp⟩, fun db row => by simp⟩
  | cons e es ih =>
    obtain ⟨p, hwithin, hmeets, hrest⟩ := compileOnto_step (V := V) hc hacc hok
    have hsome : ∀ q ∈ some p, q.Within c.root.table (s.entries + 1) := by
      intro q hq
      rw [← Option.some.inj hq]
      exact hwithin
    obtain ⟨hresult, hiff⟩ := ih hsome hrest
    refine ⟨hresult, fun db row => ?_⟩
    rw [hiff db row]
    simp [hmeets db row, and_assoc]

/-- **The page selects the rows that satisfy every filter**, each filter by a chain of rows of its
own. The root is mostly an entity of the model; if it is not, its own relations need plain names as
well. -/
theorem selects_iff_satisfies {es : List FilterExpression} {s : Builder}
    {predicate : Option Predicate} (hroot : ¬ IsGenerated c.root.table)
    (hnames : ∀ schema, schema = c.root ∨ schema ∈ c.registry.schemas → schema.PlainRelations)
    (hok : (c.compileAll es s).1 = .ok predicate) (db : Store V) (page : PageRequest)
    (row : Row V) :
    (∃ t ∈ db.tuples (selectPage c.root predicate page), t.row? (rootAlias c.root) = some row) ↔
      row ∈ db.rows c.root.table ∧ ∀ e ∈ es, Satisfies c db row e := by
  obtain ⟨hwithin, hmeets⟩ := compileOnto_spec (V := V) ⟨hroot, hnames⟩ (by simp) hok
  have hfresh : c.root.table ∉ aliases (joinsOf predicate) := by
    cases predicate with
    | none => simp [joinsOf]
    | some p =>
      obtain ⟨entries, hp⟩ := hwithin p rfl
      exact hp.root_not_mem hroot
  rw [Store.tuples_selectPage, Store.exists_mem_found_iff hfresh, hmeets db row]
  simp

/-! ### Two orders of one customer -/

/-- Compiles filters on customers. -/
def shopCompiler : Compiler := { registry := .ofList [customers, orders], root := customers }

/-- An order of 25, and the order with the number 11; no order of the shop is both. -/
def twoOrders : List FilterExpression :=
  [.ofField "orders.total" .eq "25", .ofField "orders.id" .eq "11"]

/-- What the two filters compile to: one join of the orders for each. -/
def twoOrdersPredicate : Predicate where
  condition :=
    .and (.test ⟨"j1_orders", "total"⟩ (.equal (.int 25)))
      (.test ⟨"j2_orders", "id"⟩ (.equal (.int 11)))
  joins :=
    [⟨"orders", "j1_orders", "users", "id", "user_id"⟩,
      ⟨"orders", "j2_orders", "users", "id", "user_id"⟩]

theorem not_isGenerated_users : ¬ IsGenerated "users" := by
  intro h
  obtain ⟨digits, rest, -, -, htext⟩ := h
  exact absurd (congrArg List.head? htext) (by simp)

theorem plainRelations_shop (schema : Schema)
    (h : schema = customers ∨ schema ∈ shopCompiler.registry.schemas) : schema.PlainRelations := by
  have hschemas : shopCompiler.registry.schemas = [orders, customers] := by decide +kernel
  rw [hschemas] at h
  have hplain : ∀ schema ∈ [orders, customers], schema.PlainRelations := by decide +kernel
  refine hplain schema (h.elim ?_ id)
  intro heq
  simp [heq]

/-- The first customer satisfies both filters, though by different orders. -/
theorem selects_customer_by_two_orders :
    ¬ IsGenerated shopCompiler.root.table ∧
      (∀ schema, schema = shopCompiler.root ∨ schema ∈ shopCompiler.registry.schemas →
        schema.PlainRelations) ∧
      (shopCompiler.compileAll twoOrders ({} : Builder)).1 = .ok (some twoOrdersPredicate) ∧
      ∀ e ∈ twoOrders, Satisfies shopCompiler shop (.ofList [("id", 1)]) e := by
  have hcompiled : (shopCompiler.compileAll twoOrders ({} : Builder)).1 =
      .ok (some twoOrdersPredicate) := by decide +kernel
  have hselected : ∃ t ∈ shop.tuples (selectPage customers (some twoOrdersPredicate) ⟨0, 20⟩),
      t.row? "users" = some (.ofList [("id", 1)]) := by decide +kernel
  refine ⟨not_isGenerated_users, plainRelations_shop, hcompiled, ?_⟩
  exact ((selects_iff_satisfies not_isGenerated_users plainRelations_shop hcompiled shop ⟨0, 20⟩
    _).1 hselected).2

end Sql

end QuerySieve
