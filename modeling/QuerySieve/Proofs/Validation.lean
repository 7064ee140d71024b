import QuerySieve.Proofs.EagerLoad.Edge

/-!
# QuerySieve.Proofs.Validation

**What an accepted model is.** `Registry.validate` runs through the entities and stops at the first
fault. `Registry.Valid` says what is left when there is none (`validate_eq_ok_iff`). It is closed
under following relations: whatever way one goes from an entity of such a model, one stays in it.

Two tests are used. A table or a primary key must have a character that is no white space; a key of
a relation must not be the empty text, and so must not the parts of a link table. The columns of
scalar fields are not looked at.
-/

namespace QuerySieve

theorem Schema.mem_fieldList_iff {s : Schema} {field : Field} :
    field ∈ s.fieldList ↔ s.field? field.name = some field := by
  constructor
  · intro h
    obtain ⟨⟨name, kind⟩, hmem, rfl⟩ := List.mem_map.1 h
    exact Option.map_eq_some_iff.2 ⟨kind, Dict.get?_eq_some_iff.2 hmem, rfl⟩
  · intro h
    exact (mem_fieldList h).1

theorem Schema.relationAt?_eq_some_iff {s : Schema} {name : String} {relation : Relation} :
    s.relationAt? name = some relation ↔
      ∃ field, s.field? name = some field ∧ field.relation? = some relation :=
  Option.bind_eq_some_iff

/-- Both keys of the relation have a name, and so have its link table and the keys of that. -/
structure Relation.Keyed (relation : Relation) : Prop where
  localKey : relation.localKey ≠ ""
  foreignKey : relation.foreignKey ≠ ""
  via : ∀ via ∈ relation.via, via.table ≠ "" ∧ via.sourceKey ≠ "" ∧ via.targetKey ≠ ""

namespace Registry

variable {reg : Registry} {schema owner : Schema} {name : String} {relation : Relation}

/-- Every entity has its table and its primary key, and every relation of one leads to an entity of
the model and has its keys. -/
structure Valid (reg : Registry) : Prop where
  table : ∀ schema ∈ reg.schemas, ¬ Text.isBlankText schema.table
  primaryKey : ∀ schema ∈ reg.schemas, ¬ Text.isBlankText schema.primaryKey
  target : ∀ schema ∈ reg.schemas, ∀ name relation, schema.relationAt? name = some relation →
    ∃ target, reg.entities.get? relation.target = some target
  keyed : ∀ schema ∈ reg.schemas, ∀ name relation, schema.relationAt? name = some relation →
    relation.Keyed

theorem relationFault?_eq_none_iff : reg.relationFault? relation = none ↔
    (∃ target, reg.entities.get? relation.target = some target) ∧ relation.Keyed := by
  rw [← Option.isSome_iff_exists, ← Dict.contains, relationFault?]
  cases hcontains : reg.entities.contains relation.target with
  | false => simp
  | true =>
    have hvia : relation.via.any
        (fun v => v.table = "" ∨ v.sourceKey = "" ∨ v.targetKey = "") = false ↔
          ∀ via ∈ relation.via, via.table ≠ "" ∧ via.sourceKey ≠ "" ∧ via.targetKey ≠ "" := by
      cases relation.via <;> simp
    constructor
    · intro h
      simp only [Bool.not_true, Bool.false_eq_true, if_false, ite_eq_right_iff, reduceCtorEq,
        imp_false, not_or, Bool.not_eq_true] at h
      exact ⟨rfl, h.1, h.2.1, hvia.1 h.2.2⟩
    · intro h
      obtain ⟨-, hlocal, hforeign, hlink⟩ := h
      rw [Bool.not_true, if_neg Bool.false_ne_true, if_neg]
      simp only [hlocal, hforeign, hvia.2 hlink, Bool.false_eq_true, or_false, not_false_eq_true]

theorem schemaFault?_eq_none_iff : reg.schemaFault? schema = none ↔
    (¬ Text.isBlankText schema.table ∧ ¬ Text.isBlankText schema.primaryKey) ∧
      ∀ name relation, schema.relationAt? name = some relation →
        reg.relationFault? relation = none := by
  rw [schemaFault?, ← not_or]
  by_cases hblank : Text.isBlankText schema.table ∨ Text.isBlankText schema.primaryKey
  · simp [hblank]
  rw [if_neg hblank, List.findSome?_eq_none_iff, and_iff_right hblank]
  constructor
  · intro h name relation hat
    obtain ⟨field, hfield, hrelation⟩ := Schema.relationAt?_eq_some_iff.1 hat
    simpa [hrelation] using h field (Schema.mem_fieldList hfield).1
  · intro h field hfield
    cases hrelation : field.relation? with
    | none => rfl
    | some relation =>
      have hat := Schema.relationAt?_eq_some_iff.2
        ⟨field, Schema.mem_fieldList_iff.1 hfield, hrelation⟩
      simp [h field.name relation hat]

/-- **Accepted is what has no fault.** -/
theorem validate_eq_ok_iff : reg.validate = .ok () ↔ reg.Valid := by
  have hfaultless : reg.validate = .ok () ↔ ∀ schema ∈ reg.schemas,
      reg.schemaFault? schema = none := by
    rw [validate, ← List.findSome?_eq_none_iff]
    cases reg.schemas.findSome? reg.schemaFault? <;> simp
  rw [hfaultless]
  constructor
  · intro h
    have hschema := fun schema hschema => schemaFault?_eq_none_iff.1 (h schema hschema)
    have hrelation := fun schema hmem name relation hat =>
      relationFault?_eq_none_iff.1 ((hschema schema hmem).2 name relation hat)
    exact ⟨fun schema hmem => (hschema schema hmem).1.1,
      fun schema hmem => (hschema schema hmem).1.2,
      fun schema hmem name relation hat => (hrelation schema hmem name relation hat).1,
      fun schema hmem name relation hat => (hrelation schema hmem name relation hat).2⟩
  · intro h schema hschema
    refine schemaFault?_eq_none_iff.2 ⟨⟨h.table schema hschema, h.primaryKey schema hschema⟩, ?_⟩
    intro name relation hat
    exact relationFault?_eq_none_iff.2
      ⟨h.target schema hschema name relation hat, h.keyed schema hschema name relation hat⟩

/-- In a model that was accepted every relation leads to an entity. -/
theorem exists_target (hvalid : reg.validate = .ok ()) (howner : owner ∈ reg.schemas)
    (hrelation : owner.relationAt? name = some relation) :
    ∃ target, reg.entities.get? relation.target = some target :=
  (validate_eq_ok_iff.1 hvalid).target owner howner name relation hrelation

end Registry

end QuerySieve
