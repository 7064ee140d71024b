import QuerySieve.Proofs.Resolution
import QuerySieve.Proofs.Sql.Entry

/-!
# QuerySieve.Proofs.Sql.Chain

**What a path of relations means**, said of rows and without aliases.

`Related` is the meaning of one relation and `Leads` that of a field path: a chain of rows that
starts at a row of an entity and ends at the row with the field. Beside it stands `Chain`, the same
for the hops of a resolved path (`leads_iff_chain`). The main result is `exists_mem_follow_iff`: the
joins of a filter entry find exactly the chains.
-/

namespace QuerySieve.Sql

variable {V : Type} {db : Store V}

/-- The rows belong together under a relation, directly or through a row of its link table. -/
def Related (db : Store V) (relation : Relation) (target : Schema) (owner row : Row V) : Prop :=
  row ∈ db.rows target.table ∧
    match relation.via with
    | none => db.equal (owner.get? relation.localKey) (row.get? relation.foreignKey)
    | some via => ∃ link ∈ db.rows via.table,
        db.equal (owner.get? relation.localKey) (link.get? via.sourceKey) ∧
          db.equal (link.get? via.targetKey) (row.get? relation.foreignKey)

/-- A path leads from a row of an entity to a field of another row, relation by relation. -/
inductive Leads (reg : Registry) (db : Store V) :
    Schema → Row V → List String → Field → Row V → Prop
  /-- The last segment is a field of the row itself. -/
  | field {current : Schema} {row : Row V} {name : String} {field : Field}
      (hfield : current.field? name = some field) : Leads reg db current row [name] field row
  /-- Every other segment leads on to a related row. -/
  | relation {current target : Schema} {row next last : Row V} {name : String}
      {path : List String} {field leaf : Field} {relation : Relation}
      (hfield : current.field? name = some field) (hrelation : field.relation? = some relation)
      (htarget : reg.entities.get? relation.target = some target)
      (hrelated : Related db relation target row next)
      (hrest : Leads reg db target next path leaf last) :
      Leads reg db current row (name :: path) leaf last

/-- Rows from one to another along hops. -/
def Chain (db : Store V) : List Hop → Row V → Row V → Prop
  | [], row, last => row = last
  | hop :: hops, row, last =>
    ∃ next, Related db hop.relation hop.target row next ∧ Chain db hops next last

/-- The chains of a path are those of its hops. -/
theorem leads_iff_chain {reg : Registry} {current : Schema} {path : List String}
    {resolved : ResolvedPath} (h : reg.Resolves current path resolved) {row last : Row V}
    {leaf : Field} :
    Leads reg db current row path leaf last ↔
      leaf = resolved.leaf ∧ Chain db resolved.hops row last := by
  induction h generalizing row with
  | leaf hfield _ =>
    constructor
    · intro hleads
      cases hleads with
      | field hfield' => exact ⟨Option.some.inj (hfield'.symm.trans hfield), rfl⟩
      | relation _ _ _ _ hrest => cases hrest
    · intro hchain
      obtain ⟨rfl, rfl⟩ := hchain
      exact .field hfield
  | hop hfield hrelation htarget hresolves ih =>
    constructor
    · intro hleads
      cases hleads with
      | field _ => cases hresolves
      | relation hfield' hrelation' htarget' hrelated hrest =>
        obtain rfl := Option.some.inj (hfield'.symm.trans hfield)
        obtain rfl := Option.some.inj (hrelation'.symm.trans hrelation)
        obtain rfl := Option.some.inj (htarget'.symm.trans htarget)
        obtain ⟨hleaf, hchain⟩ := ih.1 hrest
        exact ⟨hleaf, _, hrelated, hchain⟩
    · intro hchain
      obtain ⟨hleaf, next, hrelated, hchain⟩ := hchain
      exact .relation hfield hrelation htarget hrelated (ih.2 ⟨hleaf, hchain⟩)

/-! ### The joins of one relation -/

theorem linkAlias_ne (target : String) : linkAlias target ≠ target := by
  intro h
  have hlength := congrArg String.toList h
  simp [linkAlias, aliasMark] at hlength

/-- The joins of a relation go on from an owner with exactly the rows related to it. -/
theorem exists_mem_follow_hopJoins {t : Tuple V} {source target : String} {hop : Hop}
    {owner next : Row V} (howner : t.row? source = some owner)
    (hsource : source ∉ aliases (hopJoins source target hop)) :
    (∃ u ∈ db.follow (hopJoins source target hop) t, u.row? target = some next) ↔
      Related db hop.relation hop.target owner next := by
  have hkeep : ∀ {name : String} {r : Row V}, source ≠ name → ∀ column,
      Tuple.cell ((name, r) :: t) ⟨source, column⟩ = owner.get? column := fun hne column =>
    Tuple.cell_of_row? ((Tuple.row?_cons_of_ne _ t hne).trans howner) column
  unfold hopJoins at hsource ⊢
  unfold Related
  cases hvia : hop.relation.via with
  | none =>
    simp only [hvia, aliases_cons, aliases_nil, List.mem_singleton] at hsource
    constructor
    · intro h
      obtain ⟨u, hu, hnext⟩ := h
      obtain ⟨row, hrow, hequal, hu⟩ := Store.mem_follow_cons.1 hu
      obtain rfl := List.mem_singleton.1 hu
      obtain rfl : row = next := by simpa using hnext
      rw [hkeep hsource] at hequal
      exact ⟨hrow, hequal⟩
    · intro h
      refine ⟨(target, next) :: t, Store.mem_follow_cons.2 ⟨next, h.1, ?_, ?_⟩, by simp⟩
      · rw [hkeep hsource]
        exact h.2
      · exact List.mem_singleton_self _
  | some via =>
    simp only [hvia, aliases_cons, aliases_nil, List.mem_cons, not_or] at hsource
    -- the link row is under its own alias when the target is joined to it
    have hlink : ∀ (link row : Row V) (column : String),
        Tuple.cell ((target, row) :: (linkAlias target, link) :: t) ⟨linkAlias target, column⟩ =
          link.get? column := fun link row column =>
      Tuple.cell_of_row? ((Tuple.row?_cons_of_ne row _ (linkAlias_ne target)).trans
        (Tuple.row?_cons_self _ link t)) column
    constructor
    · intro h
      obtain ⟨u, hu, hnext⟩ := h
      obtain ⟨link, hlinkrow, howns, hu⟩ := Store.mem_follow_cons.1 hu
      obtain ⟨row, hrow, hequal, hu⟩ := Store.mem_follow_cons.1 hu
      obtain rfl := List.mem_singleton.1 hu
      obtain rfl : row = next := by simpa using hnext
      rw [hkeep hsource.1] at howns
      rw [hlink] at hequal
      exact ⟨hrow, link, hlinkrow, howns, hequal⟩
    · intro h
      obtain ⟨hrow, link, hlinkrow, howns, hequal⟩ := h
      refine ⟨(target, next) :: (linkAlias target, link) :: t, Store.mem_follow_cons.2
        ⟨link, hlinkrow, ?_, Store.mem_follow_cons.2 ⟨next, hrow, ?_, ?_⟩⟩, by simp⟩
      · rw [hkeep hsource.1]
        exact howns
      · rw [hlink]
        exact hequal
      · exact List.mem_singleton_self _

/-! ### The joins of a path -/

/-- The joins of an entry lead from the row at its source to exactly the rows at the end of a
chain. -/
theorem exists_mem_follow_iff {entry : Nat} {hops : List Hop} {source relations : String}
    {t : Tuple V} {row last : Row V} (hrow : t.row? source = some row)
    (hsource : source ∉ aliases (entryJoins entry source relations hops))
    (hnodup : (aliases (entryJoins entry source relations hops)).Nodup) :
    (∃ u ∈ db.follow (entryJoins entry source relations hops) t,
        u.row? (endAlias entry source relations hops) = some last) ↔
      Chain db hops row last := by
  induction hops generalizing source relations t row with
  | nil =>
    constructor
    · intro h
      obtain ⟨u, hu, hlast⟩ := h
      rw [List.mem_singleton.1 hu] at hlast
      exact Option.some.inj (hrow.symm.trans hlast)
    · intro h
      obtain rfl : row = last := h
      exact ⟨t, List.mem_singleton_self t, hrow⟩
  | cons hop hops ih =>
    rw [entryJoins, aliases_append] at hsource hnodup
    rw [entryJoins, endAlias]
    generalize hnext : extendRelations relations hop.name = next at *
    have hhere : source ∉ aliases (hopJoins source (joinAlias entry next) hop) := fun hmem =>
      hsource (List.mem_append_left _ hmem)
    have hjoined := target_mem_aliases_hopJoins source (joinAlias entry next) hop
    -- the later joins do not use the target's alias again
    have htarget : joinAlias entry next ∉
        aliases (entryJoins entry (joinAlias entry next) next hops) := fun hmem =>
      (List.nodup_append.1 hnodup).2.2 _ hjoined _ hmem rfl
    have hrest := (List.nodup_append.1 hnodup).2.1
    constructor
    · intro h
      obtain ⟨u, hu, hlast⟩ := h
      obtain ⟨mid, hmid, hu⟩ := Store.mem_follow_append.1 hu
      obtain ⟨step, hstep⟩ := Store.exists_row?_of_mem_follow (.inl hjoined) hmid
      exact ⟨step, (exists_mem_follow_hopJoins hrow hhere).1 ⟨mid, hmid, hstep⟩,
        (ih hstep htarget hrest).1 ⟨u, hu, hlast⟩⟩
    · intro h
      obtain ⟨step, hrelated, hchain⟩ := h
      obtain ⟨mid, hmid, hstep⟩ := (exists_mem_follow_hopJoins hrow hhere).2 hrelated
      obtain ⟨u, hu, hlast⟩ := (ih hstep htarget hrest).2 hchain
      exact ⟨u, Store.mem_follow_append.2 ⟨mid, hmid, hu⟩, hlast⟩

end QuerySieve.Sql
