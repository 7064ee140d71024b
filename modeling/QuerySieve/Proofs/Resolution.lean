import QuerySieve.Schema.Path

/-!
# QuerySieve.Proofs.Resolution

**Resolution as a relation.** `Registry.resolve` walks a path and stops at the first segment that
does not fit. `Registry.Resolves` says what a path that fits looks like, one rule for the leaf and
one for a relation, and `resolve_eq_ok_iff` says that the walk finds exactly that.
-/

namespace QuerySieve

/-- A sequence succeeds exactly if both its steps do. -/
theorem bind_eq_ok_iff {ε α β : Type} {x : Except ε α} {f : α → Except ε β} {b : β} :
    (x >>= f) = .ok b ↔ ∃ a, x = .ok a ∧ f a = .ok b := by
  cases x <;> simp [bind, Except.bind]

/-- A sequence fails if its first step does, or if the second does after it. -/
theorem bind_eq_error_iff {ε α β : Type} {x : Except ε α} {f : α → Except ε β} {error : ε} :
    (x >>= f) = .error error ↔ x = .error error ∨ ∃ a, x = .ok a ∧ f a = .error error := by
  cases x <;> simp [bind, Except.bind]

/-- A field of an entity is in its list, under its name. -/
theorem Schema.mem_fieldList {s : Schema} {name : String} {field : Field}
    (h : s.field? name = some field) : field ∈ s.fieldList ∧ field.name = name := by
  obtain ⟨kind, hkind, rfl⟩ := Option.map_eq_some_iff.1 h
  exact ⟨List.mem_map.2 ⟨_, Dict.get?_eq_some_iff.1 hkind, rfl⟩, rfl⟩

/-- The path leads from an entity through relations to a scalar field. -/
inductive Registry.Resolves (reg : Registry) : Schema → List String → ResolvedPath → Prop
  /-- The last segment names a scalar field. -/
  | leaf {current : Schema} {name : String} {field : Field} {type : ValueType}
      (hfield : current.field? name = some field) (htype : field.valueType? = some type) :
      Resolves reg current [name] ⟨[], field, type⟩
  /-- Every other segment names a relation whose target is in the model. -/
  | hop {current target : Schema} {name : String} {field : Field} {relation : Relation}
      {path : List String} {resolved : ResolvedPath}
      (hfield : current.field? name = some field) (hrelation : field.relation? = some relation)
      (htarget : reg.entities.get? relation.target = some target)
      (hrest : Resolves reg target path resolved) :
      Resolves reg current (name :: path)
        { resolved with hops := ⟨name, relation, target⟩ :: resolved.hops }

namespace Registry

variable {reg : Registry}

theorem schema_eq_ok_iff {entity : String} {schema : Schema} :
    reg.schema entity = .ok schema ↔ reg.entities.get? entity = some schema := by
  unfold Registry.schema
  cases reg.entities.get? entity <;> simp

theorem mem_schemas_of_get? {entity : String} {schema : Schema}
    (h : reg.entities.get? entity = some schema) : schema ∈ reg.schemas :=
  List.mem_map.2 ⟨_, Dict.get?_eq_some_iff.1 h, rfl⟩

theorem lookup_eq_ok_iff {full name : String} {schema : Schema} {field : Field} :
    lookup full schema name = .ok field ↔ schema.field? name = some field := by
  unfold lookup
  cases schema.field? name <;> simp

theorem leaf_eq_ok_iff {full name : String} {current : Schema} {resolved : ResolvedPath} :
    leaf full current name = .ok resolved ↔ ∃ field type, current.field? name = some field ∧
      field.valueType? = some type ∧ resolved = ⟨[], field, type⟩ := by
  rw [leaf, bind_eq_ok_iff]
  constructor
  · intro h
    obtain ⟨field, hfield, h⟩ := h
    cases htype : field.valueType? with
    | none => simp [htype, throw, throwThe, MonadExceptOf.throw] at h
    | some type =>
      simp only [htype, pure, Except.pure, Except.ok.injEq] at h
      exact ⟨field, type, lookup_eq_ok_iff.1 hfield, htype, h.symm⟩
  · intro h
    obtain ⟨field, type, hfield, htype, rfl⟩ := h
    refine ⟨field, lookup_eq_ok_iff.2 hfield, ?_⟩
    simp only [htype]
    rfl

theorem hop_eq_ok_iff {full name : String} {current : Schema} {hop : Hop} :
    reg.hop full current name = .ok hop ↔ ∃ field relation target,
      current.field? name = some field ∧ field.relation? = some relation ∧
        reg.entities.get? relation.target = some target ∧ hop = ⟨name, relation, target⟩ := by
  rw [Registry.hop, bind_eq_ok_iff]
  constructor
  · intro h
    obtain ⟨field, hfield, h⟩ := h
    cases hrelation : field.relation? with
    | none => simp [hrelation, throw, throwThe, MonadExceptOf.throw] at h
    | some relation =>
      simp only [hrelation] at h
      obtain ⟨target, htarget, h⟩ := bind_eq_ok_iff.1 h
      exact ⟨field, relation, target, lookup_eq_ok_iff.1 hfield, hrelation,
        schema_eq_ok_iff.1 htarget, (Except.ok.inj h).symm⟩
  · intro h
    obtain ⟨field, relation, target, hfield, hrelation, htarget, rfl⟩ := h
    refine ⟨field, lookup_eq_ok_iff.2 hfield, ?_⟩
    simp only [hrelation]
    exact bind_eq_ok_iff.2 ⟨target, schema_eq_ok_iff.2 htarget, rfl⟩

theorem resolveFrom_cons_cons_eq_ok_iff {full name next : String} {current : Schema}
    {path : List String} {resolved : ResolvedPath} :
    reg.resolveFrom full current (name :: next :: path) = .ok resolved ↔
      ∃ hop rest, reg.hop full current name = .ok hop ∧
        reg.resolveFrom full hop.target (next :: path) = .ok rest ∧
          resolved = { rest with hops := hop :: rest.hops } := by
  rw [resolveFrom, bind_eq_ok_iff]
  · simp only [bind_eq_ok_iff, pure, Except.pure, Except.ok.injEq, @eq_comm _ _ resolved,
      exists_and_left]
  · simp

theorem resolveFrom_eq_ok_iff {full : String} {current : Schema} {path : List String}
    {resolved : ResolvedPath} :
    reg.resolveFrom full current path = .ok resolved ↔ reg.Resolves current path resolved := by
  induction path generalizing current resolved with
  | nil =>
    constructor
    · intro h
      simp [resolveFrom] at h
    · intro h
      cases h
  | cons name path ih =>
    cases path with
    | nil =>
      rw [resolveFrom, leaf_eq_ok_iff]
      constructor
      · intro h
        obtain ⟨field, type, hfield, htype, rfl⟩ := h
        exact .leaf hfield htype
      · intro h
        cases h with
        | leaf hfield htype => exact ⟨_, _, hfield, htype, rfl⟩
        | hop _ _ _ hrest => cases hrest
    | cons next path =>
      rw [resolveFrom_cons_cons_eq_ok_iff]
      constructor
      · intro h
        obtain ⟨hop, rest, hhop, hrest, rfl⟩ := h
        obtain ⟨field, relation, target, hfield, hrelation, htarget, rfl⟩ := hop_eq_ok_iff.1 hhop
        exact .hop hfield hrelation htarget (ih.1 hrest)
      · intro h
        cases h with
        | hop hfield hrelation htarget hrest =>
          exact ⟨_, _, hop_eq_ok_iff.2 ⟨_, _, _, hfield, hrelation, htarget, rfl⟩, ih.2 hrest, rfl⟩

theorem resolve_eq_ok_iff {root : Schema} {path : List String} {resolved : ResolvedPath} :
    reg.resolve root path = .ok resolved ↔ reg.Resolves root path resolved :=
  resolveFrom_eq_ok_iff

/-! ### Paths that lead nowhere -/

theorem unresolved_of_schema_eq_error {entity : String} {error : FilterError}
    (h : reg.schema entity = .error error) : ∃ path fault, error = .unresolved path fault := by
  unfold Registry.schema at h
  split at h
  · cases h
  · exact ⟨_, _, (Except.error.inj h).symm⟩

theorem unresolved_of_lookup_eq_error {full name : String} {schema : Schema} {error : FilterError}
    (h : lookup full schema name = .error error) :
    ∃ path fault, error = .unresolved path fault := by
  unfold lookup at h
  split at h
  · cases h
  · exact ⟨_, _, (Except.error.inj h).symm⟩

theorem unresolved_of_hop_eq_error {full name : String} {current : Schema} {error : FilterError}
    (h : reg.hop full current name = .error error) :
    ∃ path fault, error = .unresolved path fault := by
  rw [Registry.hop, bind_eq_error_iff] at h
  obtain h | ⟨field, -, h⟩ := h
  · exact unresolved_of_lookup_eq_error h
  · split at h
    · exact ⟨_, _, (Except.error.inj h).symm⟩
    · obtain h | ⟨target, -, h⟩ := bind_eq_error_iff.1 h
      · exact unresolved_of_schema_eq_error h
      · cases h

theorem unresolved_of_leaf_eq_error {full name : String} {current : Schema} {error : FilterError}
    (h : leaf full current name = .error error) : ∃ path fault, error = .unresolved path fault := by
  rw [leaf, bind_eq_error_iff] at h
  obtain h | ⟨field, -, h⟩ := h
  · exact unresolved_of_lookup_eq_error h
  · split at h
    · exact ⟨_, _, (Except.error.inj h).symm⟩
    · cases h

/-- A path that does not resolve is refused as such, wherever it goes wrong. -/
theorem unresolved_of_resolveFrom_eq_error {full : String} {current : Schema} {path : List String}
    {error : FilterError} (h : reg.resolveFrom full current path = .error error) :
    ∃ path fault, error = .unresolved path fault := by
  induction path generalizing current with
  | nil => exact ⟨_, _, (Except.error.inj h).symm⟩
  | cons name path ih =>
    cases path with
    | nil => exact unresolved_of_leaf_eq_error h
    | cons next path =>
      rw [resolveFrom, bind_eq_error_iff] at h
      · obtain h | ⟨hop, -, h⟩ := h
        · exact unresolved_of_hop_eq_error h
        · obtain h | ⟨resolved, -, h⟩ := bind_eq_error_iff.1 h
          · exact ih h
          · cases h
      · simp

namespace Resolves

variable {current : Schema} {path : List String} {resolved : ResolvedPath}

/-- A path leads to one field only. -/
theorem unique {other : ResolvedPath} (h : reg.Resolves current path resolved)
    (h' : reg.Resolves current path other) : resolved = other := by
  have hok := (resolve_eq_ok_iff.2 h).symm.trans (resolve_eq_ok_iff.2 h')
  simpa using hok

theorem valueType?_leaf (h : reg.Resolves current path resolved) :
    resolved.leaf.valueType? = some resolved.type := by
  induction h with
  | leaf hfield htype => exact htype
  | hop _ _ _ _ ih => exact ih

/-- The segments of a path are the names of what it leads through. -/
theorem names (h : reg.Resolves current path resolved) :
    resolved.hops.map (·.name) ++ [resolved.leaf.name] = path := by
  induction h with
  | leaf hfield _ => rw [List.map_nil, List.nil_append, (Schema.mem_fieldList hfield).2]
  | hop _ _ _ _ ih => rw [List.map_cons, List.cons_append, ih]

/-- The leaf is stored in a column. -/
theorem exists_column (h : reg.Resolves current path resolved) :
    ∃ column, resolved.leaf.column? = some column := by
  have htype := h.valueType?_leaf
  unfold Field.valueType? at htype
  unfold Field.column?
  split at htype
  · exact ⟨_, rfl⟩
  · cases htype

end Resolves

end Registry

end QuerySieve
