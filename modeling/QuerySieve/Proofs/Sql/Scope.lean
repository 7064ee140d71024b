import QuerySieve.Proofs.Sql.Meaning
import QuerySieve.Sql.Predicate

/-!
# QuerySieve.Proofs.Sql.Scope

**Predicates that keep to their own names**, and what follows for conjunctions.

A predicate is a flat list of joins with a condition over all of them. `Predicate.WellScoped` says
that it speaks of the root and of what it has joined itself. For two such predicates without a
common alias the joint assignment of rows factors: `Predicate.meets_conj` says that a root row meets
the conjunction exactly when it meets both, each with rows of its own.

The work is done by `exists_mem_extend_of_agree`: joins look only at names in their scope, so what
extends one tuple extends every tuple that agrees with it there.
-/

namespace QuerySieve.Sql

variable {V : Type} {db : Store V}

/-- The names that joins introduce. -/
def aliases (joins : List JoinSpec) : List String := joins.map (·.tableAlias)

@[simp] theorem aliases_nil : aliases [] = [] := rfl

@[simp] theorem aliases_cons (j : JoinSpec) (js : List JoinSpec) :
    aliases (j :: js) = j.tableAlias :: aliases js := rfl

@[simp] theorem aliases_append (js ks : List JoinSpec) :
    aliases (js ++ ks) = aliases js ++ aliases ks := by
  simp [aliases]

theorem map_name_toJoin (joins : List JoinSpec) :
    (joins.map JoinSpec.toJoin).map Join.name = aliases joins := by
  simp [aliases]

/-- The tuples that go on from `t` along joins of a predicate. -/
abbrev Store.follow (db : Store V) (joins : List JoinSpec) (t : Tuple V) : List (Tuple V) :=
  db.extend (joins.map JoinSpec.toJoin) t

/-- One join: a row of its table whose column equals the cell on the left. -/
theorem Store.mem_follow_cons {j : JoinSpec} {js : List JoinSpec} {t u : Tuple V} :
    u ∈ db.follow (j :: js) t ↔ ∃ r ∈ db.rows j.table,
      db.equal (Tuple.cell ((j.tableAlias, r) :: t) ⟨j.leftAlias, j.leftColumn⟩)
        (r.get? j.rightColumn) ∧ u ∈ db.follow js ((j.tableAlias, r) :: t) := by
  have hcell : ∀ r : Row V,
      Tuple.cell ((j.tableAlias, r) :: t) ⟨j.tableAlias, j.rightColumn⟩ = r.get? j.rightColumn :=
    fun r => Tuple.cell_of_row? (Tuple.row?_cons_self j.tableAlias r t) j.rightColumn
  rw [Store.follow, List.map_cons, Store.mem_extend_cons]
  simp only [Store.meets, JoinSpec.name_toJoin, ← hcell]
  rfl

theorem Store.mem_follow_append {js ks : List JoinSpec} {t u : Tuple V} :
    u ∈ db.follow (js ++ ks) t ↔ ∃ mid ∈ db.follow js t, u ∈ db.follow ks mid := by
  rw [Store.follow, List.map_append, Store.mem_extend_append]

theorem Store.row?_of_mem_follow {joins : List JoinSpec} {t u : Tuple V} {name : String}
    (hname : name ∉ aliases joins) (hu : u ∈ db.follow joins t) : u.row? name = t.row? name :=
  Store.row?_of_mem_extend (by rwa [map_name_toJoin]) hu

/-- Every name that is joined or known before has a row in the end. -/
theorem Store.exists_row?_of_mem_follow {joins : List JoinSpec} {t u : Tuple V} {name : String}
    (h : name ∈ aliases joins ∨ ∃ r, t.row? name = some r) (hu : u ∈ db.follow joins t) :
    ∃ r, u.row? name = some r := by
  induction joins generalizing t with
  | nil =>
    rw [List.mem_singleton.1 hu]
    exact h.resolve_left List.not_mem_nil
  | cons j js ih =>
    obtain ⟨r, -, -, hu⟩ := Store.mem_follow_cons.1 hu
    by_cases hname : name = j.tableAlias
    · subst hname
      exact ih (.inr ⟨r, Tuple.row?_cons_self _ r t⟩) hu
    · refine ih ?_ hu
      rw [Tuple.row?_cons_of_ne r t hname]
      exact h.imp_left fun hmem => (List.mem_cons.1 hmem).resolve_left hname

/-! ### Conjoined joins -/

theorem pushJoin_of_not_mem {joins : List JoinSpec} {j : JoinSpec}
    (h : j.tableAlias ∉ aliases joins) : pushJoin joins j = joins ++ [j] := by
  have hany : (joins.any fun k => k.tableAlias = j.tableAlias) = false := by
    simp only [aliases, List.mem_map, not_exists, not_and] at h
    simpa using h
  rw [pushJoin, if_neg (by simp [hany])]

theorem pushJoin_of_mem {joins : List JoinSpec} {j : JoinSpec}
    (h : j.tableAlias ∈ aliases joins) : pushJoin joins j = joins := by
  obtain ⟨k, hk, halias⟩ := List.mem_map.1 h
  exact if_pos (List.any_eq_true.2 ⟨k, hk, decide_eq_true halias⟩)

/-- Joins with names of their own are all added. -/
theorem foldl_pushJoin {left right : List JoinSpec} (h : (aliases (left ++ right)).Nodup) :
    right.foldl pushJoin left = left ++ right := by
  induction right generalizing left with
  | nil => simp
  | cons j js ih =>
    rw [List.append_cons] at h ⊢
    have hj : j.tableAlias ∉ aliases left := by
      have := (List.nodup_append.1 (aliases_append _ js ▸ h)).1
      rw [aliases_append, List.nodup_append] at this
      exact fun hm => this.2.2 _ hm _ (List.mem_singleton_self _) rfl
    rw [List.foldl_cons, pushJoin_of_not_mem hj]
    exact ih h

/-- No join that is there gets lost or moved. -/
theorem prefix_foldl_pushJoin (left right : List JoinSpec) :
    left <+: right.foldl pushJoin left := by
  induction right generalizing left with
  | nil => exact List.prefix_refl left
  | cons j js ih =>
    have hpush : left <+: pushJoin left j := by
      unfold pushJoin
      split
      · exact List.prefix_refl left
      · exact List.prefix_append left [j]
    exact hpush.trans (ih (pushJoin left j))

/-! ### Scope -/

/-- Every join is on a name that is known, from the start or from an earlier join. -/
def Scoped : List String → List JoinSpec → Prop
  | _, [] => True
  | known, j :: js => j.leftAlias ∈ known ∧ Scoped (j.tableAlias :: known) js

theorem Scoped.mono {joins : List JoinSpec} {known more : List String}
    (h : Scoped known joins) (hsub : known ⊆ more) : Scoped more joins := by
  induction joins generalizing known more with
  | nil => trivial
  | cons j js ih => exact ⟨hsub h.1, ih h.2 (List.cons_subset_cons _ hsub)⟩

theorem Scoped.append {js ks : List JoinSpec} {known : List String}
    (hj : Scoped known js) (hk : Scoped (aliases js ++ known) ks) : Scoped known (js ++ ks) := by
  induction js generalizing known with
  | nil => exact hk
  | cons j js ih => exact ⟨hj.1, ih hj.2 (hk.mono (by intro n; simp; tauto))⟩

/-- Two tuples have the same rows under the names. -/
def Agree (names : List String) (t u : Tuple V) : Prop := ∀ n ∈ names, t.row? n = u.row? n

theorem Agree.symm {names : List String} {t u : Tuple V} (h : Agree names t u) :
    Agree names u t := fun n hn => (h n hn).symm

theorem Agree.cons {names : List String} {t u : Tuple V} (h : Agree names t u) (name : String)
    (r : Row V) : Agree (name :: names) ((name, r) :: t) ((name, r) :: u) := by
  intro n hn
  by_cases hne : n = name
  · subst hne
    simp
  · rw [Tuple.row?_cons_of_ne r t hne, Tuple.row?_cons_of_ne r u hne]
    exact h n ((List.mem_cons.1 hn).resolve_left hne)

theorem Agree.cell {names : List String} {t u : Tuple V} (h : Agree names t u) {c : Column}
    (hc : c.qualifier ∈ names) : t.cell c = u.cell c := by
  rw [Tuple.cell, Tuple.cell, h _ hc]

/-- Joins go on from tuples that agree in their scope in the same ways, and agreement extends to the
names joined. -/
theorem exists_mem_follow_of_agree {joins : List JoinSpec} {known : List String}
    {t u t' : Tuple V} (hs : Scoped known joins) (ha : Agree known t u)
    (ht : t' ∈ db.follow joins t) :
    ∃ u' ∈ db.follow joins u, Agree (aliases joins ++ known) t' u' := by
  induction joins generalizing known t u with
  | nil =>
    rw [List.mem_singleton.1 ht]
    exact ⟨u, List.mem_singleton_self u, ha⟩
  | cons j js ih =>
    obtain ⟨r, hr, hequal, ht⟩ := Store.mem_follow_cons.1 ht
    have hcons := ha.cons j.tableAlias r
    have hleft := hcons.cell (c := ⟨j.leftAlias, j.leftColumn⟩) (List.mem_cons_of_mem _ hs.1)
    obtain ⟨u', hu, hagree⟩ := ih hs.2 hcons ht
    refine ⟨u', Store.mem_follow_cons.2 ⟨r, hr, hleft ▸ hequal, hu⟩, fun n hn => hagree n ?_⟩
    simp at hn ⊢
    tauto

/-! ### Predicates -/

namespace Predicate

/-- The predicate speaks of the root and of what it joins itself. -/
structure WellScoped (root : String) (p : Predicate) : Prop where
  joins : Scoped [root] p.joins
  condition : ∀ leaf ∈ p.condition.leaves, leaf.1.qualifier ∈ aliases p.joins ++ [root]

/-- A root row meets the predicate: rows can be joined to it so that the condition holds. -/
def Meets (db : Store V) (root : String) (row : Row V) (p : Predicate) : Prop :=
  ∃ t ∈ db.follow p.joins [(root, row)], p.condition.holds db t

/-- The aliases of both predicates are all different, and none is the root's name. -/
def Apart (root : String) (p q : Predicate) : Prop :=
  (root :: aliases (p.joins ++ q.joins)).Nodup

variable {root : String} {p q : Predicate}

theorem joins_conj (h : Apart root p q) : (p.conj q).joins = p.joins ++ q.joins :=
  foldl_pushJoin (List.nodup_cons.1 h).2

theorem wellScoped_conj (hp : p.WellScoped root) (hq : q.WellScoped root) (h : Apart root p q) :
    (p.conj q).WellScoped root where
  joins := by
    rw [joins_conj h]
    exact hp.joins.append (hq.joins.mono (by simp))
  condition := by
    rw [joins_conj h]
    intro leaf hleaf
    rcases List.mem_append.1 hleaf with hl | hr
    · have := hp.condition leaf hl
      simp at this ⊢
      tauto
    · have := hq.condition leaf hr
      simp at this ⊢
      tauto

/-- What one predicate speaks of is not joined by the other. -/
theorem Apart.not_mem_right (h : Apart root p q) :
    ∀ n ∈ aliases p.joins ++ [root], n ∉ aliases q.joins := by
  have hnodup : (aliases p.joins ++ aliases q.joins).Nodup :=
    aliases_append p.joins q.joins ▸ (List.nodup_cons.1 h).2
  intro n hn hq
  rcases List.mem_append.1 hn with hn | hn
  · exact (List.nodup_append.1 hnodup).2.2 n hn n hq rfl
  · rw [List.mem_singleton.1 hn] at hq
    exact (List.nodup_cons.1 h).1 (aliases_append p.joins q.joins ▸ List.mem_append_right _ hq)

/-- The joins of a predicate leave the root row. -/
theorem Apart.agree_root (h : Apart root p q) {row : Row V} {t : Tuple V}
    (ht : t ∈ db.follow p.joins [(root, row)]) : Agree [root] t [(root, row)] := by
  have hroot : root ∉ aliases p.joins := fun hmem =>
    (List.nodup_cons.1 h).1 (aliases_append p.joins q.joins ▸ List.mem_append_left _ hmem)
  intro n hn
  rw [List.mem_singleton.1 hn]
  exact Store.row?_of_mem_follow hroot ht

/-- Joins of other names do not change whether the condition holds. -/
theorem WellScoped.holds_of_mem_follow (hp : p.WellScoped root) {joins : List JoinSpec}
    (hother : ∀ n ∈ aliases p.joins ++ [root], n ∉ aliases joins) {t u : Tuple V}
    (hu : u ∈ db.follow joins t) : p.condition.holds db u = p.condition.holds db t :=
  Condition.holds_congr fun leaf hleaf =>
    Store.row?_of_mem_follow (hother _ (hp.condition leaf hleaf)) hu

theorem WellScoped.holds_of_agree (hp : p.WellScoped root) {t u : Tuple V}
    (h : Agree (aliases p.joins ++ [root]) t u) :
    p.condition.holds db t = p.condition.holds db u :=
  Condition.holds_congr fun leaf hleaf => h _ (hp.condition leaf hleaf)

/-- **Conjunction factors.** The rows for one predicate and the rows for the other are chosen
independently of each other. -/
theorem meets_conj (hp : p.WellScoped root) (hq : q.WellScoped root) (h : Apart root p q)
    (row : Row V) :
    (p.conj q).Meets db root row ↔ p.Meets db root row ∧ q.Meets db root row := by
  unfold Meets
  rw [joins_conj h]
  constructor
  · intro hmeets
    obtain ⟨u, hu, hholds⟩ := hmeets
    obtain ⟨t, ht, hu⟩ := Store.mem_follow_append.1 hu
    obtain ⟨hpholds, hqholds⟩ := Bool.and_eq_true_iff.1 hholds
    rw [hp.holds_of_mem_follow h.not_mem_right hu] at hpholds
    -- what is joined for `p` leaves the root row, which is all that `q` starts from
    obtain ⟨v, hv, hagree⟩ := exists_mem_follow_of_agree hq.joins (h.agree_root ht) hu
    rw [hq.holds_of_agree hagree] at hqholds
    exact ⟨⟨t, ht, hpholds⟩, v, hv, hqholds⟩
  · intro hmeets
    obtain ⟨⟨t, ht, hpholds⟩, v, hv, hqholds⟩ := hmeets
    obtain ⟨u, hu, hagree⟩ := exists_mem_follow_of_agree hq.joins (h.agree_root ht).symm hv
    rw [← hp.holds_of_mem_follow h.not_mem_right hu] at hpholds
    rw [hq.holds_of_agree hagree] at hqholds
    exact ⟨u, Store.mem_follow_append.2 ⟨t, ht, hu⟩, Bool.and_eq_true_iff.2 ⟨hpholds, hqholds⟩⟩

end Predicate

/-! ### Root rows

The page and the count of a search look through the same tuples, those of the root's table and of
the joins that the predicate brings. -/

/-- The tuples that a predicate finds, each starting at a root row. -/
def Store.found (db : Store V) (root : Schema) (predicate : Option Predicate) : List (Tuple V) :=
  (db.rows root.table).flatMap fun row =>
    (db.follow (joinsOf predicate) [(root.table, row)]).filter fun t =>
      predicate.all fun p => p.condition.holds db t

theorem Store.tuples_selectPage (root : Schema) (predicate : Option Predicate)
    (page : PageRequest) :
    db.tuples (selectPage root predicate page) = db.found root predicate := by
  cases predicate <;> rfl

theorem Store.tuples_selectCount (root : Schema) (predicate : Option Predicate) :
    db.tuples (selectCount root predicate) = db.found root predicate := by
  cases predicate <;> rfl

variable {root : Schema} {predicate : Option Predicate}

theorem Store.mem_found {t : Tuple V} :
    t ∈ db.found root predicate ↔ ∃ row ∈ db.rows root.table,
      t ∈ db.follow (joinsOf predicate) [(root.table, row)] ∧
        ∀ p ∈ predicate, p.condition.holds db t := by
  simp only [Store.found, List.mem_flatMap, List.mem_filter, Option.all_eq_true, Option.mem_def]

/-- The row that a tuple starts at is the one under the root's name, unless the name is joined
again. -/
theorem Store.row?_root (hroot : root.table ∉ aliases (joinsOf predicate)) {row : Row V}
    {t : Tuple V} (ht : t ∈ db.follow (joinsOf predicate) [(root.table, row)]) :
    t.row? (rootAlias root) = some row :=
  (Store.row?_of_mem_follow hroot ht).trans (Tuple.row?_cons_self root.table row [])

/-- A row of the root's table is found exactly if it meets the predicate. -/
theorem Store.exists_mem_found_iff (hroot : root.table ∉ aliases (joinsOf predicate))
    {row : Row V} :
    (∃ t ∈ db.found root predicate, t.row? (rootAlias root) = some row) ↔
      row ∈ db.rows root.table ∧ ∀ p ∈ predicate, p.Meets db root.table row := by
  constructor
  · intro h
    obtain ⟨t, ht, hrow⟩ := h
    obtain ⟨start, hstart, ht, hholds⟩ := Store.mem_found.1 ht
    obtain rfl := Option.some.inj ((Store.row?_root hroot ht).symm.trans hrow)
    refine ⟨hstart, fun p hp => ?_⟩
    obtain rfl : predicate = some p := hp
    exact ⟨t, ht, hholds p rfl⟩
  · intro h
    obtain ⟨hstart, hmeets⟩ := h
    cases predicate with
    | none =>
      refine ⟨[(root.table, row)], Store.mem_found.2 ⟨row, hstart, ?_, by simp⟩, ?_⟩
      · exact List.mem_singleton_self _
      · simp [rootAlias]
    | some p =>
      obtain ⟨t, ht, hholds⟩ := hmeets p rfl
      refine ⟨t, Store.mem_found.2 ⟨row, hstart, ht, fun q hq => ?_⟩, Store.row?_root hroot ht⟩
      obtain rfl : p = q := Option.some.inj hq
      exact hholds

end QuerySieve.Sql
