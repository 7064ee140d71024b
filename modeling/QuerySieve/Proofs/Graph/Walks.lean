import QuerySieve.Proofs.Graph.Malformed
import QuerySieve.Proofs.Sql.Meaning
import QuerySieve.Proofs.Validation

/-!
# QuerySieve.Proofs.Graph.Walks

**Filters and graphs walk a model the same way.**

A path is resolved segment by segment, and the text of a graph is read name by name; both look up a
field, ask what it is and go on to the entity that the relation leads to. In a model that was
accepted there always is such an entity. So a segment fails by its own field or not at all
(`Schema.Refuses`), and a path is refused exactly for the segment at which the walk along it stops
(`resolve_eq_error_iff`). What a graph accepts is what the hops of a path are, a chain of relations
(`exists_ofEmbedded_chain_iff`).
-/

namespace QuerySieve

/-- The type of the scalar field that an entity has under a name. -/
def Schema.typeAt? (s : Schema) (name : String) : Option ValueType :=
  (s.field? name).bind Field.valueType?

/-- A segment of a path does not fit the entity that it is looked up in. What fits depends on
whether there are segments `after` it. -/
inductive Schema.Refuses (owner : Schema) (segment : String) : List String → PathFault → Prop
  /-- It names no field. -/
  | unknown {after : List String} (hfield : owner.field? segment = none) :
      Refuses owner segment after (.unknownField segment owner.name)
  /-- There are more segments, and it names a scalar field. -/
  | scalar {type : ValueType} {next : String} {after : List String}
      (htype : owner.typeAt? segment = some type) :
      Refuses owner segment (next :: after) (.notTraversable segment owner.name)
  /-- It is the last one and names a relation. -/
  | relation {relation : Relation} (hrelation : owner.relationAt? segment = some relation) :
      Refuses owner segment [] (.relationLeaf segment)

/-- Walking along a path from an entity one comes to a segment that does not fit. -/
def Registry.StopsAt (reg : Registry) (root : Schema) (before : List String) (segment : String)
    (after : List String) (fault : PathFault) : Prop :=
  ∃ owner, reg.Reaches root before owner ∧ owner.Refuses segment after fault

/-! ### What a name is -/

theorem Field.valueType?_eq_none_iff {f : Field} :
    f.valueType? = none ↔ ∃ relation, f.relation? = some relation := by
  unfold valueType? relation?
  cases f.kind <;> simp

theorem Field.relation?_eq_none_iff {f : Field} :
    f.relation? = none ↔ ∃ type, f.valueType? = some type := by
  unfold valueType? relation?
  cases f.kind <;> simp

namespace Schema

variable {owner : Schema} {name : String} {after : List String}

theorem typeAt?_eq_some_iff {type : ValueType} : owner.typeAt? name = some type ↔
    ∃ field, owner.field? name = some field ∧ field.valueType? = some type :=
  Option.bind_eq_some_iff

/-- A name is no field, a relation or a scalar field. -/
theorem field?_cases (owner : Schema) (name : String) :
    owner.field? name = none ∨ (∃ relation, owner.relationAt? name = some relation) ∨
      ∃ type, owner.typeAt? name = some type := by
  cases hfield : owner.field? name with
  | none => exact .inl rfl
  | some field =>
    cases htype : field.valueType? with
    | none =>
      obtain ⟨relation, hrelation⟩ := Field.valueType?_eq_none_iff.1 htype
      exact .inr (.inl ⟨relation, relationAt?_eq_some_iff.2 ⟨field, hfield, hrelation⟩⟩)
    | some type => exact .inr (.inr ⟨type, typeAt?_eq_some_iff.2 ⟨field, hfield, htype⟩⟩)

/-- Before other segments everything is refused but a relation. -/
theorem exists_refuses_iff (hafter : after ≠ []) :
    (∃ fault, owner.Refuses name after fault) ↔ owner.relationAt? name = none := by
  constructor
  · intro h
    obtain ⟨fault, h⟩ := h
    cases h with
    | unknown hfield => rw [relationAt?, hfield, Option.bind_none]
    | scalar htype =>
      obtain ⟨field, hfield, htype⟩ := typeAt?_eq_some_iff.1 htype
      rw [relationAt?, hfield, Option.bind_some]
      exact Field.relation?_eq_none_iff.2 ⟨_, htype⟩
    | relation => exact absurd rfl hafter
  · intro h
    obtain ⟨next, after, rfl⟩ := List.exists_cons_of_ne_nil hafter
    obtain hfield | ⟨relation, hrelation⟩ | ⟨type, htype⟩ := field?_cases owner name
    · exact ⟨_, .unknown hfield⟩
    · rw [h] at hrelation
      cases hrelation
    · exact ⟨_, .scalar htype⟩

end Schema

namespace Registry

variable {reg : Registry} {root owner current reached : Schema} {full name segment last : String}
variable {path chain before after : List String} {fault : PathFault} {error : FilterError}

theorem reaches_nil_iff : reg.Reaches owner [] reached ↔ owner = reached := by
  constructor
  · intro h
    cases h
    rfl
  · intro h
    exact h ▸ .here owner

theorem reaches_cons_iff : reg.Reaches owner (name :: chain) reached ↔ ∃ relation target,
    owner.relationAt? name = some relation ∧ reg.entities.get? relation.target = some target ∧
      reg.Reaches target chain reached := by
  constructor
  · intro h
    cases h with
    | along hrelation htarget hrest => exact ⟨_, _, hrelation, htarget, hrest⟩
  · intro h
    obtain ⟨relation, target, hrelation, htarget, hrest⟩ := h
    exact .along hrelation htarget hrest

theorem stopsAt_nil_iff :
    reg.StopsAt root [] segment after fault ↔ root.Refuses segment after fault := by
  simp [StopsAt, reaches_nil_iff]

theorem stopsAt_cons_iff : reg.StopsAt root (name :: before) segment after fault ↔
    ∃ relation target, root.relationAt? name = some relation ∧
      reg.entities.get? relation.target = some target ∧
        reg.StopsAt target before segment after fault := by
  simp only [StopsAt, reaches_cons_iff]
  constructor
  · intro h
    obtain ⟨owner, ⟨relation, target, hrelation, htarget, hrest⟩, hrefuses⟩ := h
    exact ⟨relation, target, hrelation, htarget, owner, hrest, hrefuses⟩
  · intro h
    obtain ⟨relation, target, hrelation, htarget, owner, hrest, hrefuses⟩ := h
    exact ⟨owner, ⟨relation, target, hrelation, htarget, hrest⟩, hrefuses⟩

/-! ### Paths -/

/-- The hops of a path are a chain of relations, and its leaf is a scalar field of the entity that
they lead to. -/
theorem exists_resolves_iff : (∃ resolved, reg.Resolves root path resolved) ↔
    ∃ chain name owner type, path = chain ++ [name] ∧ reg.Reaches root chain owner ∧
      owner.typeAt? name = some type := by
  constructor
  · intro h
    obtain ⟨resolved, h⟩ := h
    induction h with
    | leaf hfield htype =>
      exact ⟨[], _, _, _, rfl, .here _, Schema.typeAt?_eq_some_iff.2 ⟨_, hfield, htype⟩⟩
    | hop hfield hrelation htarget _ ih =>
      obtain ⟨chain, name, owner, type, rfl, hreaches, htype⟩ := ih
      have hat := Schema.relationAt?_eq_some_iff.2 ⟨_, hfield, hrelation⟩
      exact ⟨_ :: chain, name, owner, type, rfl, .along hat htarget hreaches, htype⟩
  · intro h
    obtain ⟨chain, name, owner, type, rfl, hreaches, htype⟩ := h
    induction hreaches with
    | here owner =>
      obtain ⟨field, hfield, htype⟩ := Schema.typeAt?_eq_some_iff.1 htype
      exact ⟨_, .leaf hfield htype⟩
    | along hrelation htarget _ ih =>
      obtain ⟨resolved, hresolved⟩ := ih htype
      obtain ⟨field, hfield, hrelation⟩ := Schema.relationAt?_eq_some_iff.1 hrelation
      exact ⟨_, .hop hfield hrelation htarget hresolved⟩

theorem lookup_eq_error_iff : lookup full owner name = .error error ↔
    owner.field? name = none ∧ error = .unresolved full (.unknownField name owner.name) := by
  unfold lookup
  cases owner.field? name <;> simp [eq_comm]

/-- A last segment fails exactly by what it is. -/
theorem leaf_eq_error_iff : leaf full owner name = .error error ↔
    ∃ fault, owner.Refuses name [] fault ∧ error = .unresolved full fault := by
  rw [leaf, bind_eq_error_iff]
  constructor
  · intro h
    obtain h | ⟨field, hfield, h⟩ := h
    · obtain ⟨hnone, rfl⟩ := lookup_eq_error_iff.1 h
      exact ⟨_, .unknown hnone, rfl⟩
    · cases htype : field.valueType? with
      | some type => simp [htype, pure, Except.pure] at h
      | none =>
        simp only [htype] at h
        obtain ⟨relation, hrelation⟩ := Field.valueType?_eq_none_iff.1 htype
        have hat := Schema.relationAt?_eq_some_iff.2 ⟨field, lookup_eq_ok_iff.1 hfield, hrelation⟩
        exact ⟨_, .relation hat, (Except.error.inj h).symm⟩
  · intro h
    obtain ⟨fault, hrefuses, rfl⟩ := h
    cases hrefuses with
    | unknown hunknown => exact .inl (lookup_eq_error_iff.2 ⟨hunknown, rfl⟩)
    | relation hrelation =>
      obtain ⟨field, hfield, hrelation⟩ := Schema.relationAt?_eq_some_iff.1 hrelation
      refine .inr ⟨field, lookup_eq_ok_iff.2 hfield, ?_⟩
      simp only [Field.valueType?_eq_none_iff.2 ⟨_, hrelation⟩]
      rfl

/-- In an accepted model every other segment fails exactly by what it is, too: the entity that its
relation leads to is there. -/
theorem hop_eq_error_iff (hvalid : reg.Valid) (howner : owner ∈ reg.schemas) (next : String)
    (after : List String) : reg.hop full owner name = .error error ↔
      ∃ fault, owner.Refuses name (next :: after) fault ∧ error = .unresolved full fault := by
  rw [hop, bind_eq_error_iff]
  constructor
  · intro h
    obtain h | ⟨field, hfield, h⟩ := h
    · obtain ⟨hnone, rfl⟩ := lookup_eq_error_iff.1 h
      exact ⟨_, .unknown hnone, rfl⟩
    · rw [lookup_eq_ok_iff] at hfield
      cases hrelation : field.relation? with
      | some relation =>
        obtain ⟨target, htarget⟩ := hvalid.target owner howner name relation
          (Schema.relationAt?_eq_some_iff.2 ⟨field, hfield, hrelation⟩)
        simp only [hrelation, schema_eq_ok_iff.2 htarget] at h
        cases h
      | none =>
        simp only [hrelation] at h
        obtain ⟨type, htype⟩ := Field.relation?_eq_none_iff.1 hrelation
        have hat := Schema.typeAt?_eq_some_iff.2 ⟨field, hfield, htype⟩
        exact ⟨_, .scalar hat, (Except.error.inj h).symm⟩
  · intro h
    obtain ⟨fault, hrefuses, rfl⟩ := h
    cases hrefuses with
    | unknown hunknown => exact .inl (lookup_eq_error_iff.2 ⟨hunknown, rfl⟩)
    | scalar htype =>
      obtain ⟨field, hfield, htype⟩ := Schema.typeAt?_eq_some_iff.1 htype
      refine .inr ⟨field, lookup_eq_ok_iff.2 hfield, ?_⟩
      simp only [Field.relation?_eq_none_iff.2 ⟨_, htype⟩]
      rfl

/-- A segment fails, or the rest does after it. -/
theorem resolveFrom_cons_cons_eq_error_iff {next : String} :
    reg.resolveFrom full current (name :: next :: path) = .error error ↔
      reg.hop full current name = .error error ∨ ∃ hop, reg.hop full current name = .ok hop ∧
        reg.resolveFrom full hop.target (next :: path) = .error error := by
  rw [resolveFrom, bind_eq_error_iff]
  · simp only [bind_eq_error_iff, pure, Except.pure, reduceCtorEq, and_false, exists_false,
      or_false]
  · simp

/-- **A path fails exactly by the segment at which the walk along it stops.** The induction is on
the path; the entity that the next segment is looked up in is in the model again. -/
theorem resolveFrom_eq_error_iff (hvalid : reg.Valid) (hcurrent : current ∈ reg.schemas)
    (hne : path ≠ []) : reg.resolveFrom full current path = .error error ↔
      ∃ before segment after fault, path = before ++ segment :: after ∧
        reg.StopsAt current before segment after fault ∧ error = .unresolved full fault := by
  induction path generalizing current with
  | nil => exact absurd rfl hne
  | cons name path ih =>
    cases path with
    | nil =>
      rw [resolveFrom, leaf_eq_error_iff]
      constructor
      · intro h
        obtain ⟨fault, hrefuses, herror⟩ := h
        exact ⟨[], name, [], fault, rfl, stopsAt_nil_iff.2 hrefuses, herror⟩
      · intro h
        obtain ⟨before, segment, after, fault, hpath, hstops, herror⟩ := h
        obtain ⟨rfl, rfl, rfl⟩ : before = [] ∧ segment = name ∧ after = [] := by
          cases before <;> simp_all
        exact ⟨fault, stopsAt_nil_iff.1 hstops, herror⟩
    | cons next path =>
      rw [resolveFrom_cons_cons_eq_error_iff,
        hop_eq_error_iff hvalid hcurrent next path]
      constructor
      · intro h
        obtain ⟨fault, hrefuses, herror⟩ | ⟨hop, hhop, hrest⟩ := h
        · exact ⟨[], name, next :: path, fault, rfl, stopsAt_nil_iff.2 hrefuses, herror⟩
        · obtain ⟨field, relation, target, hfield, hrelation, htarget, rfl⟩ := hop_eq_ok_iff.1 hhop
          obtain ⟨before, segment, after, fault, hpath, hstops, herror⟩ :=
            (ih (mem_schemas_of_get? htarget) (List.cons_ne_nil _ _)).1 hrest
          have hat := Schema.relationAt?_eq_some_iff.2 ⟨field, hfield, hrelation⟩
          exact ⟨name :: before, segment, after, fault, congrArg _ hpath,
            stopsAt_cons_iff.2 ⟨relation, target, hat, htarget, hstops⟩, herror⟩
      · intro h
        obtain ⟨before, segment, after, fault, hpath, hstops, herror⟩ := h
        cases before with
        | nil =>
          obtain ⟨rfl, rfl⟩ := List.cons.inj hpath
          exact .inl ⟨fault, stopsAt_nil_iff.1 hstops, herror⟩
        | cons first before =>
          obtain ⟨rfl, hrest⟩ := List.cons.inj hpath
          obtain ⟨relation, target, hat, htarget, hstops⟩ := stopsAt_cons_iff.1 hstops
          obtain ⟨field, hfield, hrelation⟩ := Schema.relationAt?_eq_some_iff.1 hat
          refine .inr ⟨⟨name, relation, target⟩,
            hop_eq_ok_iff.2 ⟨field, relation, target, hfield, hrelation, htarget, rfl⟩, ?_⟩
          exact (ih (mem_schemas_of_get? htarget) (List.cons_ne_nil _ _)).2
            ⟨before, segment, after, fault, hrest, hstops, herror⟩

/-- Without a segment there is nothing to resolve; otherwise the walk stops somewhere. -/
theorem resolve_eq_error_iff (hvalid : reg.Valid) (hroot : root ∈ reg.schemas) :
    reg.resolve root path = .error error ↔
      (path = [] ∧ error = .unresolved "" .emptyPath) ∨
        ∃ before segment after fault, path = before ++ segment :: after ∧
          reg.StopsAt root before segment after fault ∧
            error = .unresolved (Text.join '.' path) fault := by
  cases path with
  | nil => simp [resolve, resolveFrom, Text.join, Text.joinChars, eq_comm]
  | cons name path =>
    rw [resolve, resolveFrom_eq_error_iff hvalid hroot (List.cons_ne_nil _ _)]
    simp

/-- What a walk stops for is a field of an entity that is there. -/
theorem StopsAt.ne_unknownEntity (h : reg.StopsAt root before segment after fault) :
    fault ≠ .unknownEntity := by
  obtain ⟨owner, -, hrefuses⟩ := h
  cases hrefuses <;> simp

/-- A chain leads somewhere exactly if the walk along it and one segment more does not stop on the
chain. -/
theorem exists_reaches_iff (hvalid : reg.Valid) (hroot : root ∈ reg.schemas) :
    (∃ reached, reg.Reaches root chain reached) ↔
      ∀ before segment after fault, chain = before ++ segment :: after →
        ¬ reg.StopsAt root before segment (after ++ [last]) fault := by
  have hmore : ∀ after : List String, after ++ [last] ≠ [] := by simp
  induction chain generalizing root with
  | nil => exact iff_of_true ⟨root, .here root⟩ (by simp)
  | cons name chain ih =>
    constructor
    · intro h before segment after fault hchain hstops
      obtain ⟨reached, h⟩ := h
      obtain ⟨relation, target, hrelation, htarget, hrest⟩ := reaches_cons_iff.1 h
      cases before with
      | nil =>
        obtain ⟨rfl, rfl⟩ := List.cons.inj hchain
        have hnone := (Schema.exists_refuses_iff (hmore chain)).1 ⟨fault, stopsAt_nil_iff.1 hstops⟩
        rw [hrelation] at hnone
        cases hnone
      | cons first before =>
        obtain ⟨rfl, htail⟩ := List.cons.inj hchain
        obtain ⟨other, next, hother, hnext, hstops⟩ := stopsAt_cons_iff.1 hstops
        obtain rfl := Option.some.inj (hrelation.symm.trans hother)
        obtain rfl := Option.some.inj (htarget.symm.trans hnext)
        exact (ih (mem_schemas_of_get? htarget)).1 ⟨reached, hrest⟩ before segment after fault
          htail hstops
    · intro h
      cases hrelation : root.relationAt? name with
      | none =>
        obtain ⟨fault, hrefuses⟩ := (Schema.exists_refuses_iff (hmore chain)).2 hrelation
        exact absurd (stopsAt_nil_iff.2 hrefuses) (h [] name chain fault rfl)
      | some relation =>
        obtain ⟨target, htarget⟩ := hvalid.target root hroot name relation hrelation
        have hrest : ∃ reached, reg.Reaches target chain reached := by
          refine (ih (mem_schemas_of_get? htarget)).2 ?_
          intro before segment after fault hchain hstops
          exact h (name :: before) segment after fault (congrArg _ hchain)
            (stopsAt_cons_iff.2 ⟨relation, target, hrelation, htarget, hstops⟩)
        obtain ⟨reached, hreached⟩ := hrest
        exact ⟨reached, .along hrelation htarget hreached⟩

/-- Behind a chain of relations a segment either ends a path or is what the path fails by. -/
theorem exists_reaches_iff_resolve (hvalid : reg.Valid) (hroot : root ∈ reg.schemas) :
    (∃ reached, reg.Reaches root chain reached) ↔
      (∃ resolved, reg.resolve root (chain ++ [last]) = .ok resolved) ∨
        ∃ fault, reg.StopsAt root chain last [] fault ∧
          reg.resolve root (chain ++ [last]) =
            .error (.unresolved (Text.join '.' (chain ++ [last])) fault) := by
  simp only [resolve_eq_ok_iff, exists_resolves_iff]
  constructor
  · intro h
    obtain ⟨reached, hreaches⟩ := h
    have hfails : ∀ fault, reached.Refuses last [] fault →
        ∃ fault, reg.StopsAt root chain last [] fault ∧
          reg.resolve root (chain ++ [last]) =
            .error (.unresolved (Text.join '.' (chain ++ [last])) fault) := by
      intro fault hrefuses
      have hstops : reg.StopsAt root chain last [] fault := ⟨reached, hreaches, hrefuses⟩
      exact ⟨fault, hstops, (resolve_eq_error_iff hvalid hroot).2
        (.inr ⟨chain, last, [], fault, rfl, hstops, rfl⟩)⟩
    obtain hfield | ⟨relation, hrelation⟩ | ⟨type, htype⟩ := Schema.field?_cases reached last
    · exact .inr (hfails _ (.unknown hfield))
    · exact .inr (hfails _ (.relation hrelation))
    · exact .inl ⟨chain, last, reached, type, rfl, hreaches, htype⟩
  · intro h
    obtain ⟨hops, name, owner, type, hpath, hreaches, -⟩ | ⟨fault, ⟨owner, hreaches, -⟩, -⟩ := h
    · obtain ⟨rfl, -⟩ := List.append_inj' hpath rfl
      exact ⟨owner, hreaches⟩
    · exact ⟨owner, hreaches⟩

end Registry

/-! ### Graphs -/

namespace FetchGraph

variable {reg : Registry} {root : Schema} {chain : List String}

instance (name : String) : Decidable (IsName name) :=
  decidable_of_iff (name.toList ≠ [] ∧ name.toList.all Text.isNameChar) (by
    rw [IsName, List.all_eq_true])

theorem IsName.isPlain {name : String} (h : IsName name) : IsPlain name where
  unmarked c hc hmark := by
    have hchar := h.2 c hc
    rw [hmark.isNameChar] at hchar
    cases hchar
  first c hc := h.not_isBlank c (List.mem_of_mem_head? hc)
  last c hc := h.not_isBlank c (List.mem_of_mem_getLast? hc)

/-- A dotted chain is cut into its names again. -/
theorem segments_join (hne : chain ≠ []) (hnames : ∀ name ∈ chain, IsName name) :
    segments (Text.join '.' chain) = chain := by
  have hdot : ∀ name ∈ chain, '.' ∉ name.toList := fun name hname hc =>
    absurd ((hnames name hname).2 '.' hc) (by decide)
  have htrim : ∀ name ∈ chain, Text.trim name = name := fun name hname => by
    rw [Text.trim, Text.trimChars_eq_self (hnames name hname).not_isBlank, String.ofList_toList]
  rw [segments, Text.split_join hne hdot, List.map_congr_left htrim, List.map_id']

/-- A dotted chain is one entry, and no blank one. -/
theorem ofEmbedded_join (hne : chain ≠ []) (hnames : ∀ name ∈ chain, IsName name) :
    ofEmbedded reg root (Text.join '.' chain) = parse reg root (EmbeddedPath.graphText chain) := by
  have hcomma : ',' ∉ (Text.join '.' chain).toList := by
    intro hc
    obtain hdot | ⟨name, hname, hc⟩ := Text.mem_join hc
    · exact absurd hdot (by decide)
    · exact absurd ((hnames name hname).2 ',' hc) (by decide)
  have hblank : ¬ Text.isBlankText (Text.join '.' chain) := by
    intro hblank
    obtain ⟨name, rest, rfl⟩ := List.exists_cons_of_ne_nil hne
    have hname := hnames name List.mem_cons_self
    obtain ⟨c, cs, hcs⟩ := List.exists_cons_of_ne_nil hname.1
    have hc : c ∈ name.toList := hcs ▸ List.mem_cons_self
    have hjoin : c ∈ (Text.join '.' (name :: rest)).toList := by
      rw [Text.join, String.toList_ofList]
      exact Text.mem_joinChars_of_mem (List.mem_map_of_mem List.mem_cons_self) hc
    exact hname.not_isBlank c hc (List.all_eq_true.1 hblank c hjoin)
  rw [ofEmbedded_of_entry hcomma hblank, segments_join hne hnames]

/-- A dotted chain is accepted exactly if it is a chain of relations. -/
theorem exists_ofEmbedded_chain_iff (hne : chain ≠ []) (hnames : ∀ name ∈ chain, IsName name) :
    (∃ graph, ofEmbedded reg root (Text.join '.' chain) = .ok graph) ↔
      ∃ reached, reg.Reaches root chain reached := by
  rw [ofEmbedded_join hne hnames]
  constructor
  · intro h
    obtain ⟨graph, hgraph⟩ := h
    have hlast : ∀ name ∈ chain.getLast?, name ≠ "" := fun name hname =>
      (hnames name (List.mem_of_mem_getLast? hname)).ne_empty
    exact (embeddable_of_parse (fun name hname => (hnames name hname).isPlain) hne hlast
      hgraph).reaches
  · intro h
    obtain ⟨reached, hreaches⟩ := h
    exact ⟨_, parse_graphText hne hnames hreaches⟩

/-- In an accepted model a relation that is read has its target. -/
theorem relationTarget_ne_missingTarget (hvalid : reg.Valid) {owner : Schema}
    (howner : owner ∈ reg.schemas) (name target : String) :
    relationTarget reg owner name ≠ .error (.missingTarget target) := by
  intro h
  cases hrelation : owner.relationAt? name with
  | some relation =>
    obtain ⟨found, hfound⟩ := hvalid.target owner howner name relation hrelation
    rw [relationTarget_eq_ok_iff.2 ⟨relation, hrelation, hfound⟩] at h
    cases h
  | none =>
    rw [Schema.relationAt?] at hrelation
    unfold relationTarget at h
    cases hfield : owner.field? name with
    | none => simp [hfield] at h
    | some field =>
      rw [hfield, Option.bind_some] at hrelation
      simp [hfield, hrelation] at h

theorem parse_ne_missingTarget (hvalid : reg.Valid) (hroot : root ∈ reg.schemas)
    (text given target : String) :
    parse reg root text ≠ .error (.badGraph given (.missingTarget target)) := by
  intro h
  rw [parse] at h
  cases hread : items reg text.toList text.toList.length root text.toList with
  | error fault =>
    simp only [hread, Except.error.injEq, FilterError.badGraph.injEq] at h
    refine holds_of_items_eq_error (P := fun fault => fault ≠ .missingTarget target)
      (fun owner => owner ∈ reg.schemas) GraphFault.noConfusion
      (fun _ _ _ => GraphFault.noConfusion) ?_ ?_ hread hroot List.suffix_rfl (Nat.le_refl _) h.2
    · intro owner name fault howner hfault hmissing
      exact relationTarget_ne_missingTarget hvalid howner name target (hmissing ▸ hfault)
    · intro owner name next howner htarget
      obtain ⟨relation, -, hnext⟩ := relationTarget_eq_ok_iff.1 htarget
      exact Registry.mem_schemas_of_get? hnext
  | ok found =>
    simp only [hread] at h
    split at h <;> cases h

theorem ofParams_ne_missingTarget (hvalid : reg.Valid) (hroot : root ∈ reg.schemas)
    (params : Params) (given target : String) :
    ofParams reg root params ≠ .error (.badGraph given (.missingTarget target)) := by
  intro h
  unfold ofParams at h
  split at h
  · obtain ⟨path, -, hpath⟩ := exists_parse_eq_error h
    exact parse_ne_missingTarget hvalid hroot _ given target hpath
  · cases h

/-- **Filters and graphs walk a model the same way.** In a model that was accepted a path resolves
exactly if all its segments but the last are a chain of relations and the last is a scalar field of
the entity that they lead to; its hops and its leaf are these. Otherwise it is refused for the
segment that the walk stops at, and never because an entity is missing; nor does a graph miss one.

A dotted chain of names is accepted as a graph exactly if a path through all of it and one segment
further does not stop on the chain: it resolves, or it is refused for the last segment. -/
theorem filters_and_graphs_walk_alike {reg : Registry} {root : Schema}
    (hvalid : reg.validate = .ok ()) (hroot : root ∈ reg.schemas) :
    (∀ path,
      (∀ resolved, reg.resolve root path = .ok resolved ↔ reg.Resolves root path resolved) ∧
      ((∃ resolved, reg.resolve root path = .ok resolved) ↔
        ∃ chain name owner type, path = chain ++ [name] ∧ reg.Reaches root chain owner ∧
          owner.typeAt? name = some type) ∧
      (∀ error, reg.resolve root path = .error error ↔
        (path = [] ∧ error = .unresolved "" .emptyPath) ∨
          ∃ before segment after fault, path = before ++ segment :: after ∧
            reg.StopsAt root before segment after fault ∧
              error = .unresolved (Text.join '.' path) fault) ∧
      ∀ full, reg.resolve root path ≠ .error (.unresolved full .unknownEntity)) ∧
    (∀ given target,
      (∀ text, parse reg root text ≠ .error (.badGraph given (.missingTarget target))) ∧
      ∀ params, ofParams reg root params ≠ .error (.badGraph given (.missingTarget target))) ∧
    ∀ chain last, chain ≠ [] → (∀ name ∈ chain, IsName name) →
      ((∃ graph, ofEmbedded reg root (Text.join '.' chain) = .ok graph) ↔
        (∃ resolved, reg.resolve root (chain ++ [last]) = .ok resolved) ∨
          ∃ fault, reg.StopsAt root chain last [] fault ∧
            reg.resolve root (chain ++ [last]) =
              .error (.unresolved (Text.join '.' (chain ++ [last])) fault)) ∧
      ((∃ graph, ofEmbedded reg root (Text.join '.' chain) = .ok graph) ↔
        ∀ before segment after fault, chain = before ++ segment :: after →
          ¬ reg.StopsAt root before segment (after ++ [last]) fault) := by
  have hvalid := Registry.validate_eq_ok_iff.1 hvalid
  refine ⟨fun path => ⟨fun resolved => Registry.resolve_eq_ok_iff, ?_, ?_, ?_⟩, ?_, ?_⟩
  · simp only [Registry.resolve_eq_ok_iff]
    exact Registry.exists_resolves_iff
  · exact fun error => Registry.resolve_eq_error_iff hvalid hroot
  · intro full h
    obtain ⟨-, hempty⟩ | ⟨before, segment, after, fault, -, hstops, herror⟩ :=
      (Registry.resolve_eq_error_iff hvalid hroot).1 h
    · simp at hempty
    · exact hstops.ne_unknownEntity (FilterError.unresolved.inj herror).2.symm
  · exact fun given target => ⟨fun text => parse_ne_missingTarget hvalid hroot text given target,
      fun params => ofParams_ne_missingTarget hvalid hroot params given target⟩
  · intro chain last hne hnames
    rw [exists_ofEmbedded_chain_iff hne hnames]
    exact ⟨Registry.exists_reaches_iff_resolve hvalid hroot,
      Registry.exists_reaches_iff hvalid hroot⟩

open Sql (customers orders) in
/-- Round the cycle from customers to their orders and back a graph goes as far as a path; the total
of an order ends a path, and no graph leads through it. -/
theorem filters_and_graphs_walk_alike_of_shop :
    (Registry.ofList [customers, orders]).validate = .ok () ∧
      customers ∈ (Registry.ofList [customers, orders]).schemas ∧
      (∃ graph, ofEmbedded (.ofList [customers, orders]) customers "orders.user.orders" =
        .ok graph) ∧
      ¬ ∃ graph, ofEmbedded (.ofList [customers, orders]) customers "orders.total" = .ok graph := by
  have hvalid : (Registry.ofList [customers, orders]).validate = .ok () := by decide +kernel
  have hroot : customers ∈ (Registry.ofList [customers, orders]).schemas := by decide +kernel
  obtain ⟨-, -, hchains⟩ := filters_and_graphs_walk_alike hvalid hroot
  refine ⟨hvalid, hroot, ?_, fun h => ?_⟩
  · refine (hchains ["orders", "user", "orders"] "total" (by decide) (by decide +kernel)).1.2 ?_
    have hsome : ((Registry.ofList [customers, orders]).resolve customers
        ["orders", "user", "orders", "total"]).toOption.isSome := by decide +kernel
    cases hresolved : (Registry.ofList [customers, orders]).resolve customers
        ["orders", "user", "orders", "total"] with
    | error fault =>
      rw [hresolved] at hsome
      cases hsome
    | ok resolved => exact .inl ⟨resolved, hresolved⟩
  · have hreaches : (Registry.ofList [customers, orders]).Reaches customers ["orders"] orders :=
      .along rfl (by decide +kernel) (.here orders)
    have hrefuses : orders.Refuses "total" ["id"] (.notTraversable "total" "order") :=
      .scalar rfl
    exact (hchains ["orders", "total"] "id" (by decide) (by decide +kernel)).2.1 h
      ["orders"] "total" [] _ rfl ⟨orders, hreaches, hrefuses⟩

end FetchGraph

end QuerySieve
