import QuerySieve.Schema.Serialized

/-!
# QuerySieve.Proofs.Serialized

**Models survive being written and loaded again.** Each part of a model has a writer and a reader,
and reading what was written gives the part back (`ofJson?_toJson`): link tables, relations, fields,
entities, whole models. `Registry.models_survive_reload` adds the validation that loading ends with.

The written form leaves things out and the reader supplies them from elsewhere:

* an optional member that is not set is not written, and reads as not set when it is missing;
* a field shows what it is in a member `kind` beside its content, which is taken out before the
  content is read (`FieldKind.ofJson?_object`);
* an entity is written without its name, and its key names it again (`Registry.named`).

Readers look members up by name, so of a written record two facts are enough: which names there are,
and that of the members of a name the last counts (`Entries.get?_ofList`).
-/

namespace QuerySieve

/-! ### Members of a written record -/

namespace Json

variable {α : Type} {names : List String} {members : List (String × Json)}

theorem all_contains_ofList (h : ∀ m ∈ members, m.1 ∈ names) :
    ∀ m ∈ Entries.ofList members, names.contains m.1 = true := fun m hm =>
  List.contains_iff_mem.2 (h m (Entries.mem_of_mem_ofList hm))

/-- A record with known members only is accepted with all of them. -/
theorem record?_object (h : ∀ m ∈ members, m.1 ∈ names) :
    (object members).record? names = some (Entries.ofList members) :=
  if_pos (List.all_eq_true.2 (all_contains_ofList h))

/-- Where other members are ignored, there are none to ignore. -/
theorem openRecord?_object (h : ∀ m ∈ members, m.1 ∈ names) :
    (object members).openRecord? names = some (Entries.ofList members) :=
  congrArg some (List.filter_eq_self.2 (all_contains_ofList h))

theorem required?_ofList (key : String) (read : Json → Option α) :
    required? key read (Entries.ofList members) = required? key read members.reverse := by
  rw [required?, Entries.get?_ofList, required?]

theorem withDefault?_ofList (key : String) (default : α) (read : Json → Option α) :
    withDefault? key default read (Entries.ofList members)
      = withDefault? key default read members.reverse := by
  rw [withDefault?, Entries.get?_ofList, withDefault?]

theorem mapM_some (xs : List α) : xs.mapM some = some xs :=
  (List.mapM_pure ..).trans (congrArg some (List.map_id xs))

/-- A map can be read back when its values can. -/
theorem dict?_entries {write : α → Json} {read : Json → Option α}
    (h : ∀ a, read (write a) = some a) (m : Dict α) :
    dict? read (.obj (m.entries.map fun (name, a) => (name, write a))) = some m := by
  have hread : (m.entries.map fun (name, a) => (name, write a)).mapM
      (fun e => (read e.2).map fun value => (e.1, value)) = some m.entries := by
    simp only [List.mapM_map, Function.comp_def, h, Option.map_some]
    exact mapM_some _
  rw [dict?, hread, Option.map_some, Dict.ofList_entries]

end Json

/-! ### The parts of a model -/

theorem ValueType.ofJson?_name (t : ValueType) : ofJson? (.str t.name) = some t :=
  ofName?_name t

theorem Cardinality.ofJson?_name (c : Cardinality) : ofJson? (.str c.name) = some c := by
  cases c <;> rfl

theorem LinkTable.ofJson?_toJson (v : LinkTable) : ofJson? v.toJson = some v := by
  rw [ofJson?, toJson, Json.record?_object (by simp)]
  simp only [Option.bind_eq_bind, Option.bind_some, Json.required?_ofList]
  rfl

theorem Relation.ofJson?_toJson (r : Relation) : ofJson? r.toJson = some r := by
  obtain ⟨target, cardinality, localKey, foreignKey, via⟩ := r
  rw [ofJson?, toJson, Json.record?_object (by cases via <;> simp [members])]
  simp only [members, Option.bind_eq_bind, Option.bind_some, Json.required?_ofList,
    Json.withDefault?_ofList, List.reverse_append]
  have hvia : ∀ v : LinkTable, Json.nullable? LinkTable.ofJson? v.toJson = some (some v) :=
    fun v => congrArg (Option.map some) v.ofJson?_toJson
  cases via <;>
    simp [Json.required?, Json.withDefault?, Json.text?, Entries.get?, Cardinality.ofJson?_name,
      hvia]

namespace FieldKind

/-- What stands beside the kind of a field is its content. -/
theorem ofJson?_object (kind : String) {content : List (String × Json)}
    (h : ∀ m ∈ content, m.1 ≠ "kind") :
    ofJson? (Json.object (("kind", .str kind) :: content))
      = ofKind? kind (Json.object content) := by
  have hkind : Json.required? "kind" Json.text?
      (Entries.ofList (("kind", .str kind) :: content)) = some kind := by
    have hnone : Entries.get? "kind" content.reverse = none :=
      Option.eq_none_iff_forall_ne_some.2 fun value hvalue =>
        h _ (List.mem_reverse.1 (Entries.mem_of_get?_eq_some hvalue)) rfl
    rw [Json.required?_ofList, List.reverse_cons, Json.required?, Entries.get?_append, hnone]
    rfl
  have herase : Entries.erase "kind" (Entries.ofList (("kind", .str kind) :: content))
      = Entries.ofList content := by
    rw [Entries.erase_ofList, Entries.erase, List.filter_cons_of_neg (by simp)]
    exact congrArg Entries.ofList (List.filter_eq_self.2 fun m hm => by simpa using h m hm)
  rw [Json.object, ofJson?, hkind, herase]
  rfl

theorem ofJson?_toJson (kind : FieldKind) : ofJson? kind.toJson = some kind := by
  cases kind with
  | scalar type column =>
    rw [toJson, List.cons_append, ofJson?_object "scalar" (by cases column <;> simp), ofKind?,
      if_pos rfl, Json.openRecord?_object (by cases column <;> simp)]
    simp only [Option.bind_eq_bind, Option.bind_some, Json.required?_ofList,
      Json.withDefault?_ofList, List.reverse_append]
    cases column <;>
      simp [Json.required?, Json.withDefault?, Json.nullable?, Json.text?, Entries.get?,
        ValueType.ofJson?_name]
  | relation r =>
    have hcontent : ∀ m ∈ r.members, m.1 ≠ "kind" := by
      cases hvia : r.via <;> simp [Relation.members, hvia]
    rw [toJson, ofJson?_object "relation" hcontent]
    exact congrArg (Option.map relation) r.ofJson?_toJson

end FieldKind

section

variable {text? : Json → Option String} (htext : ∀ s, text? (.str s) = some s)

include htext

/-- Under its name an entity reads as it was written. -/
theorem Schema.ofJson?_toJson (s : Schema) : ofJson? text? s.name s.toJson = some s := by
  rw [ofJson?, toJson, Json.record?_object (by simp)]
  simp only [Option.bind_eq_bind, Option.bind_some, Json.required?_ofList,
    Json.withDefault?_ofList]
  simp [Json.required?, Json.withDefault?, Entries.get?, htext,
    Json.dict?_entries FieldKind.ofJson?_toJson]

end

namespace Registry

/-! ### Whole models -/

theorem ext_entities {a b : Registry} (h : a.entities = b.entities) : a = b := by
  cases a
  cases b
  cases h
  rfl

/-- The entities of a model that is put together: of those with one name the last counts. -/
theorem entities_ofList (schemas : List Schema) :
    (ofList schemas).entities = Dict.ofList (schemas.map fun s => (s.name, s)) := by
  have go : ∀ (more : List Schema) (reg : Registry),
      (more.foldl «with» reg).entities.entries
        = (more.map fun s => (s.name, s)).foldl (fun acc e => Entries.insert e.1 e.2 acc)
          reg.entities.entries := by
    intro more
    induction more with
    | nil => intro reg; rfl
    | cons s rest ih => intro reg; exact ih (reg.with s)
  exact Dict.ext_get? fun key => congrArg (Entries.get? key) (go schemas empty)

/-- The keys of a model are the names of its entities. -/
theorem entries_eq_map_schemas (reg : Registry) :
    reg.entities.entries = reg.schemas.map fun s => (s.name, s) := by
  have hnamed : ∀ e ∈ reg.entities.entries, (e.2.name, e.2) = e := fun e he =>
    Prod.ext (reg.named e he) rfl
  rw [schemas, Dict.values, List.map_map]
  exact ((List.map_congr_left hnamed).trans (List.map_id _)).symm

/-- Every model is put together from its entities. -/
theorem ofList_schemas (reg : Registry) : ofList reg.schemas = reg :=
  ext_entities (by rw [entities_ofList, ← entries_eq_map_schemas, Dict.ofList_entries])

variable {text? : Json → Option String}

/-- A model reads as it was written, valid or not; the names come from the keys. -/
theorem ofJson?_toJson (htext : ∀ s, text? (.str s) = some s) (reg : Registry) :
    ofJson? text? reg.toJson = some reg := by
  rw [ofJson?, toJson, Json.record?_object (by simp), entries_eq_map_schemas]
  simp only [Option.bind_eq_bind, Option.bind_some, Entries.get?_ofList, List.reverse_singleton,
    Entries.get?, if_pos, List.map_map, List.mapM_map, Function.comp_def,
    Schema.ofJson?_toJson htext, Json.mapM_some, ofList_schemas]
  rfl

/-- Loading is reading and then validating. -/
theorem loadWith_eq_ok_iff {value : Json} {loaded : Registry} :
    loadWith text? value = .ok loaded ↔
      ofJson? text? value = some loaded ∧ loaded.validate = .ok () := by
  rw [loadWith]
  cases ofJson? text? value with
  | none => simp
  | some reg =>
    dsimp only
    cases hvalid : reg.validate with
    | ok =>
      constructor
      · rintro ⟨⟩
        exact ⟨rfl, hvalid⟩
      · rintro ⟨⟨⟩, -⟩
        rfl
    | error =>
      constructor
      · rintro ⟨⟩
      · rintro ⟨⟨⟩, haccepted⟩
        rw [hvalid] at haccepted
        cases haccepted

/-- A written model is loaded exactly if it is valid, and then unchanged. -/
theorem loadWith_toJson_eq_ok_iff (htext : ∀ s, text? (.str s) = some s) {reg loaded : Registry} :
    loadWith text? reg.toJson = .ok loaded ↔ reg.validate = .ok () ∧ loaded = reg := by
  rw [loadWith_eq_ok_iff, ofJson?_toJson htext]
  constructor
  · rintro ⟨⟨⟩, hvalid⟩
    exact ⟨hvalid, rfl⟩
  · rintro ⟨hvalid, rfl⟩
    exact ⟨rfl, hvalid⟩

/-- **Models survive being written and loaded again.** Whatever entities and fields a model was put
together from, its written form is loaded exactly if the model is valid, and what is loaded is the
model, names included. So whatever document a model was loaded from, with other type names, missing
defaults or nulls in it, writing the model and loading it again changes neither the model nor what
is written. Both hold of documents with quoted scalars and of documents without. -/
theorem models_survive_reload (reg : Registry) :
    (∀ loaded, load reg.toJson = .ok loaded ↔ reg.validate = .ok () ∧ loaded = reg) ∧
    (∀ loaded, loadPlain reg.toJson = .ok loaded ↔ reg.validate = .ok () ∧ loaded = reg) ∧
    ∀ value, load value = .ok reg ∨ loadPlain value = .ok reg →
      load reg.toJson = .ok reg ∧ loadPlain reg.toJson = .ok reg ∧
        ∀ again, load reg.toJson = .ok again ∨ loadPlain reg.toJson = .ok again →
          again.toJson = reg.toJson := by
  have hload : ∀ loaded, load reg.toJson = .ok loaded ↔ reg.validate = .ok () ∧ loaded = reg :=
    fun _ => loadWith_toJson_eq_ok_iff fun _ => rfl
  have hplain :
      ∀ loaded, loadPlain reg.toJson = .ok loaded ↔ reg.validate = .ok () ∧ loaded = reg :=
    fun _ => loadWith_toJson_eq_ok_iff fun _ => rfl
  refine ⟨hload, hplain, fun value hvalue => ?_⟩
  have hvalid : reg.validate = .ok () := by
    rcases hvalue with hvalue | hvalue <;> exact (loadWith_eq_ok_iff.1 hvalue).2
  refine ⟨(hload reg).2 ⟨hvalid, rfl⟩, (hplain reg).2 ⟨hvalid, rfl⟩, fun again hagain => ?_⟩
  have hsame : again = reg := by
    rcases hagain with hagain | hagain
    · exact ((hload again).1 hagain).2
    · exact ((hplain again).1 hagain).2
  rw [hsame]

/-- Posts by users. -/
def blog : Registry :=
  ofList [((Schema.new "post" "posts").scalar "id" .long).toOne "author" "user" "author_id" "id",
    (Schema.new "user" "users").scalarColumn "active" "is_active" .boolean]

/-- The same, as someone may write it down. -/
def blogDocument : Json :=
  .obj [("entities", .obj [
    ("user", .obj [("table", .str "users"), ("fields", .obj [
      ("active", .obj [("type", .str "bool"), ("kind", .str "scalar"),
        ("column", .str "is_active")])])]),
    ("post", .obj [("table", .str "posts"), ("primary_key", .str "id"), ("fields", .obj [
      ("id", .obj [("kind", .str "scalar"), ("type", .str "int"), ("column", .null)]),
      ("author", .obj [("kind", .str "relation"), ("target", .str "user"), ("via", .null),
        ("cardinality", .str "to_one"), ("local_key", .str "author_id"),
        ("foreign_key", .str "id")])])])])]

theorem models_survive_reload_of_blog :
    load blogDocument = .ok blog ∧ load blog.toJson = .ok blog
      ∧ loadPlain blog.toJson = .ok blog := by
  have hload : load blogDocument = .ok blog := rfl
  obtain ⟨hagain, hplain, -⟩ := (models_survive_reload blog).2.2 blogDocument (.inl hload)
  exact ⟨hload, hagain, hplain⟩

end Registry

end QuerySieve
