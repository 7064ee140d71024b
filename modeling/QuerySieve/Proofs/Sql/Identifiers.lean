import QuerySieve.Proofs.Graph.Walks
import QuerySieve.Proofs.Sql.Numbering

/-!
# QuerySieve.Proofs.Sql.Identifiers

**Where the names of a statement come from**, and which of them can be blank.

A statement speaks of tables, aliases and columns, and each position has names of one kind. In a
model that was accepted the tables and the primary keys of entities are not blank, and aliases never
are, whatever relations are called. Keys of relations and their link tables are not empty. The
column that a filter tests is the one that the model declares for the field of that filter, and
there acceptance says nothing.

So each kind of statement is described position by position: the joins and tests of a predicate
(`Predicate.NamedBy`), the statements that have them (`Statement.NamedBy`), and the statement that
asks for children (`Statement.NamesChildren`).
-/

namespace QuerySieve

/-- The key that the target of a relation is joined on, on the side that one comes from. -/
def Relation.nearKey (r : Relation) : String :=
  match r.via with
  | some via => via.targetKey
  | none => r.localKey

/-- A step along a relation with keys, to a table that is not blank. -/
structure Hop.Named (hop : Hop) : Prop where
  table : ¬ Text.isBlankText hop.target.table
  keyed : hop.relation.Keyed

/-- Along a path in an accepted model all steps are named: each follows a relation of an entity of
the model to another such entity. -/
theorem Registry.Resolves.named {reg : Registry} {root : Schema} {path : List String}
    {resolved : ResolvedPath} (h : reg.Resolves root path resolved) (hvalid : reg.Valid)
    (hroot : root ∈ reg.schemas) : ∀ hop ∈ resolved.hops, hop.Named := by
  induction h with
  | leaf => simp
  | hop hfield hrelation htarget _ ih =>
    have hmem := mem_schemas_of_get? htarget
    have hat := Schema.relationAt?_eq_some_iff.2 ⟨_, hfield, hrelation⟩
    exact List.forall_mem_cons.2
      ⟨⟨hvalid.table _ hmem, hvalid.keyed _ hroot _ _ hat⟩, ih hmem⟩

namespace Sql

/-! ### The names in a join -/

/-- The join brings in the target of a step along a relation, on the declared keys. -/
structure JoinSpec.ToTarget (hop : Hop) (j : JoinSpec) : Prop where
  table : j.table = hop.target.table
  leftColumn : j.leftColumn = hop.relation.nearKey
  rightColumn : j.rightColumn = hop.relation.foreignKey

/-- The join brings in the link table of a relation, on the declared keys. -/
structure JoinSpec.ToLink (relation : Relation) (via : LinkTable) (j : JoinSpec) : Prop where
  table : j.table = via.table
  leftColumn : j.leftColumn = relation.localKey
  rightColumn : j.rightColumn = via.sourceKey

/-- The names in a join for a step along a relation, position by position. Neither alias is blank.
What is joined is the target, whose table is not blank, or the link table, which is not empty. Both
columns are keys, which are not empty. -/
structure JoinSpec.NamedBy (hop : Hop) (j : JoinSpec) : Prop where
  tableAlias : ¬ Text.isBlankText j.tableAlias
  leftAlias : ¬ Text.isBlankText j.leftAlias
  table : j.ToTarget hop ∧ ¬ Text.isBlankText j.table ∨
    ∃ via, hop.relation.via = some via ∧ j.ToLink hop.relation via ∧ j.table ≠ ""
  leftColumn : j.leftColumn ≠ ""
  rightColumn : j.rightColumn ≠ ""

variable {root : Schema} {entry : Nat}

theorem not_isBlankText_joinAlias (entry : Nat) (relations : String) :
    ¬ Text.isBlankText (joinAlias entry relations) := by
  intro h
  rw [Text.isBlankText, toList_joinAlias] at h
  exact absurd (List.all_eq_true.1 h 'j' List.mem_cons_self) (by decide)

/-- What an entry knows a table by is not blank. -/
theorem not_isBlankText_qualifier (htable : ¬ Text.isBlankText root.table)
    (relations : List String) : ¬ Text.isBlankText (qualifier root entry relations) := by
  unfold qualifier
  split
  · exact htable
  · exact not_isBlankText_joinAlias _ _

theorem mem_of_mem_foldl_pushJoin {left right : List JoinSpec} {j : JoinSpec}
    (h : j ∈ right.foldl pushJoin left) : j ∈ left ∨ j ∈ right := by
  induction right generalizing left with
  | nil => exact .inl h
  | cons k ks ih =>
    obtain h | h := ih h
    · unfold pushJoin at h
      split at h
      · exact .inl h
      · obtain h | h := List.mem_append.1 h
        · exact .inl h
        · exact .inr (List.mem_cons.2 (.inl (List.mem_singleton.1 h)))
    · exact .inr (List.mem_cons_of_mem _ h)

theorem namedBy_hopJoins {hop : Hop} (h : hop.Named) {source : String}
    (hsource : ¬ Text.isBlankText source) (text : String) :
    ∀ j ∈ hopJoins source (joinAlias entry text) hop, j.NamedBy hop := by
  obtain ⟨htable, hkeyed⟩ := h
  unfold hopJoins
  cases hvia : hop.relation.via with
  | none =>
    have hlocal : hop.relation.localKey = hop.relation.nearKey := by rw [Relation.nearKey, hvia]
    intro j hj
    obtain rfl := List.mem_singleton.1 hj
    exact ⟨not_isBlankText_joinAlias _ _, hsource, .inl ⟨⟨rfl, hlocal, rfl⟩, htable⟩,
      hkeyed.localKey, hkeyed.foreignKey⟩
  | some via =>
    obtain ⟨hlinkTable, hsourceKey, htargetKey⟩ := hkeyed.via via hvia
    have hlink : via.targetKey = hop.relation.nearKey := by rw [Relation.nearKey, hvia]
    rw [linkAlias_joinAlias]
    refine List.forall_mem_cons.2 ⟨?_, List.forall_mem_singleton.2 ?_⟩
    · exact ⟨not_isBlankText_joinAlias _ _, hsource,
        .inr ⟨via, hvia, ⟨rfl, rfl, rfl⟩, hlinkTable⟩, hkeyed.localKey, hsourceKey⟩
    · exact ⟨not_isBlankText_joinAlias _ _, not_isBlankText_joinAlias _ _,
        .inl ⟨⟨rfl, hlink, rfl⟩, htable⟩, htargetKey, hkeyed.foreignKey⟩

/-! ### Along a path -/

/-- The joins of a path are named by steps of the way, and the alias that it has got to is not
blank. -/
structure Path.NamedAlong (hops : List Hop) (path : Path) : Prop where
  joins : ∀ j ∈ path.joins, ∃ hop ∈ hops, j.NamedBy hop
  reached : ¬ Text.isBlankText path.tableAlias

/-- **Step.** One relation further. -/
theorem Path.NamedAlong.follow {path : Path} {hops : List Hop} (h : path.NamedAlong hops)
    {hop : Hop} (hhop : hop ∈ hops) (hnamed : hop.Named) :
    (path.follow hop).NamedAlong hops where
  joins := by
    intro j hj
    obtain hold | hnew := mem_of_mem_foldl_pushJoin hj
    · exact h.joins j hold
    · exact ⟨hop, hhop, namedBy_hopJoins hnamed h.reached _ j hnew⟩
  reached := not_isBlankText_joinAlias _ _

/-- **Run.** Along all relations of a path. -/
theorem Path.NamedAlong.foldl_follow {path : Path} {hops more : List Hop}
    (h : path.NamedAlong hops) (hmore : ∀ hop ∈ more, hop ∈ hops ∧ hop.Named) :
    (more.foldl Path.follow path).NamedAlong hops := by
  induction more generalizing path with
  | nil => exact h
  | cons hop more ih =>
    obtain ⟨⟨hhop, hnamed⟩, hrest⟩ := List.forall_mem_cons.1 hmore
    exact ih (h.follow hhop hnamed) hrest

theorem namedBy_pathJoins (htable : ¬ Text.isBlankText root.table) (entry : Nat)
    {hops : List Hop} (hnamed : ∀ hop ∈ hops, hop.Named) :
    ∀ j ∈ pathJoins root entry hops, ∃ hop ∈ hops, j.NamedBy hop := by
  have hstart : (Path.start root entry).NamedAlong hops :=
    ⟨fun _ h => absurd h List.not_mem_nil, htable⟩
  exact (hstart.foldl_follow fun hop hhop => ⟨hhop, hnamed hop hhop⟩).joins

/-! ### The names in a predicate -/

/-- The columns that a condition tests, from left to right. -/
def Condition.tested (c : Condition) : List Column := c.leaves.map (·.1)

variable {reg : Registry} {filters : List FilterExpression}

/-- The join is named by a step on the path of one of the filters. -/
def NamedOnTheWay (reg : Registry) (root : Schema) (filters : List FilterExpression)
    (j : JoinSpec) : Prop :=
  ∃ e ∈ filters, ∃ resolved, reg.Resolves root e.path resolved ∧
    ∃ hop ∈ resolved.hops, j.NamedBy hop

/-- The column that a filter tests: under a name that is not blank the column that is declared for
the field that the filter's own path leads to. -/
def Tests (reg : Registry) (root : Schema) (e : FilterExpression) (c : Column) : Prop :=
  ¬ Text.isBlankText c.qualifier ∧
    ∃ resolved, reg.Resolves root e.path resolved ∧ resolved.leaf.column? = some c.name

/-- The names in a predicate: the joins are named by steps on the way of the filters, and of the
tests, one for each filter, each is about the column of its own filter. -/
structure Predicate.NamedBy (reg : Registry) (root : Schema) (filters : List FilterExpression)
    (p : Predicate) : Prop where
  joins : ∀ j ∈ p.joins, NamedOnTheWay reg root filters j
  tested : List.Forall₂ (Tests reg root) filters p.condition.tested

section

variable {c : Compiler} {fs : List CheckedFilter}

theorem namedOnTheWay_joinsFrom (hvalid : c.registry.Valid) (hroot : c.root ∈ c.registry.schemas)
    (hchecked : filters.mapM c.check = .ok fs) (first : Nat) :
    ∀ j ∈ joinsFrom c.root first fs, NamedOnTheWay c.registry c.root filters j := by
  intro j hj
  obtain ⟨⟨f, entry⟩, hmem, hj⟩ := List.mem_flatMap.1 hj
  obtain ⟨e, he, hcheck⟩ :=
    exists_of_mem_mapM hchecked (List.fst_mem_of_mem_zipIdx hmem)
  have hresolves := (Compiler.check_eq_ok_iff.1 hcheck).1
  obtain ⟨hop, hhop, hnamed⟩ := namedBy_pathJoins (hvalid.table c.root hroot) entry
    (hresolves.named hvalid hroot) j hj
  exact ⟨e, he, f.path, hresolves, hop, hhop, hnamed⟩

theorem tests_leafOf (htable : ¬ Text.isBlankText c.root.table) {e : FilterExpression}
    {f : CheckedFilter} (hcheck : c.check e = .ok f) (entry : Nat) :
    Tests c.registry c.root e (leafOf c.root (f, entry)).1 := by
  have hresolves := (Compiler.check_eq_ok_iff.1 hcheck).1
  obtain ⟨column, hcolumn⟩ := hresolves.exists_column
  refine ⟨not_isBlankText_qualifier htable _, f.path, hresolves, ?_⟩
  simp only [leafOf, hcolumn, Option.getD_some]

theorem forall₂_tests (htable : ¬ Text.isBlankText c.root.table)
    (hchecked : filters.mapM c.check = .ok fs) (first : Nat) :
    List.Forall₂ (Tests c.registry c.root) filters
      (((fs.zipIdx first).map (leafOf c.root)).map (·.1)) := by
  induction mapM_eq_ok_iff.1 hchecked generalizing first with
  | nil => exact .nil
  | cons hone hrest ih =>
    exact .cons (tests_leafOf htable hone first) (ih (mapM_eq_ok_iff.2 hrest) (first + 1))

/-- The columns that a predicate tests, of which there are none without a predicate. -/
def testedBy (predicate : Option Predicate) : List Column :=
  (predicate.map fun p => p.condition.tested).getD []

/-- **All filters together.** -/
theorem named_of_compileAll (hvalid : c.registry.Valid) (hroot : c.root ∈ c.registry.schemas)
    {s : Builder} {result : Option Predicate} (h : (c.compileAll filters s).1 = .ok result) :
    (∀ j ∈ joinsOf result, NamedOnTheWay c.registry c.root filters j) ∧
      List.Forall₂ (Tests c.registry c.root) filters (testedBy result) := by
  obtain ⟨fs, hchecked, rfl⟩ := Compiler.compileAll_eq_ok_iff.1 h
  refine ⟨?_, ?_⟩
  · rw [joinsOf_conjoin_build]
    exact namedOnTheWay_joinsFrom hvalid hroot hchecked _
  · have htested : testedBy (PredicateBuilder.conjoin Builder none
        (PredicateBuilder.build c.root fs s)) =
          ((fs.zipIdx (s.entries + 1)).map (leafOf c.root)).map (·.1) := by
      rw [testedBy, PredicateBuilder.view_conjoin fun left right => List.map_append,
        ← leaves_build, List.map_flatMap]
      rfl
    rw [htested]
    exact forall₂_tests (hvalid.table c.root hroot) hchecked _

end

/-! ### The names in a statement -/

/-- The names of a qualified column. -/
def Column.names (c : Column) : List String := [c.qualifier, c.name]

/-- The names of what is returned. -/
def Projection.names : Projection → List String
  | all table => [table]
  | named column name => column.names ++ [name]
  | countDistinct column name => column.names ++ [name]

/-- The columns that a statement tests. -/
def Statement.tested (s : Statement) : List Column := (s.condition.map Condition.tested).getD []

/-- The names in a statement with the predicate of filters, position by position. The table that it
reads from, the column that it orders by and all that it returns are not blank; its joins and its
tests are named as in the predicate. -/
structure Statement.NamedBy (reg : Registry) (root : Schema) (filters : List FilterExpression)
    (s : Statement) : Prop where
  table : ¬ Text.isBlankText s.table
  order : ∀ c ∈ s.order, ∀ name ∈ c.names, ¬ Text.isBlankText name
  projections : ∀ projection ∈ s.projections, ∀ name ∈ projection.names, ¬ Text.isBlankText name
  joins : ∃ joins : List JoinSpec, s.joins = joins.map JoinSpec.toJoin ∧
    ∀ j ∈ joins, NamedOnTheWay reg root filters j
  tested : List.Forall₂ (Tests reg root) filters s.tested

/-- The foreign key of a relation, in the target's own table, which is not blank. -/
structure Column.IsForeignKey (target : Schema) (relation : Relation) (c : Column) : Prop where
  declared : c = ⟨target.table, relation.foreignKey⟩
  qualifier : ¬ Text.isBlankText c.qualifier
  name : c.name ≠ ""

/-- A key of a link table, in that table. Neither is empty. -/
structure Column.IsLinkKey (via : LinkTable) (key : String) (c : Column) : Prop where
  declared : c = ⟨via.table, key⟩
  qualifier : c.qualifier ≠ ""
  name : c.name ≠ ""

/-- What is returned of a child: all of its row, and through a link table the key of its owner under
a name that is not blank. -/
def Projection.NamesChild (relation : Relation) : Projection → Prop
  | all table => ¬ Text.isBlankText table
  | named column name =>
    (∃ via, relation.via = some via ∧ column.IsLinkKey via via.sourceKey) ∧
      ¬ Text.isBlankText name
  | countDistinct _ _ => False

/-- The link table is joined to the target under its own name. -/
structure Join.NamesLink (target : Schema) (relation : Relation) (via : LinkTable) (j : Join) :
    Prop where
  table : j.table = via.table ∧ j.table ≠ ""
  tableAlias : j.tableAlias? = none
  left : j.left.IsLinkKey via via.targetKey
  right : j.right.IsForeignKey target relation

/-- The names in a statement that asks for the children of a relation, position by position. The
table that it reads from and the column that it orders by are not blank. Without a link table it
tests the foreign key; with one it joins that table and tests the key of the owner there. -/
structure Statement.NamesChildren (target : Schema) (relation : Relation) (s : Statement) :
    Prop where
  table : ¬ Text.isBlankText s.table
  order : ∀ c ∈ s.order, ∀ name ∈ c.names, ¬ Text.isBlankText name
  projections : ∀ projection ∈ s.projections, projection.NamesChild relation
  joins : ∀ j ∈ s.joins, ∃ via, relation.via = some via ∧ j.NamesLink target relation via
  tested : ∀ c ∈ s.tested, relation.via = none ∧ c.IsForeignKey target relation ∨
    ∃ via, relation.via = some via ∧ c.IsLinkKey via via.sourceKey

/-- A statement with the joins and the condition of a predicate, and no blank names besides. -/
theorem Statement.NamedBy.of_predicate {s : Statement} {predicate : Option Predicate}
    (hpredicate : (∀ j ∈ joinsOf predicate, NamedOnTheWay reg root filters j) ∧
      List.Forall₂ (Tests reg root) filters (testedBy predicate))
    (hjoins : s.joins = (joinsOf predicate).map JoinSpec.toJoin)
    (hcondition : s.condition = predicate.map Predicate.condition)
    (htable : ¬ Text.isBlankText s.table)
    (horder : ∀ c ∈ s.order, ∀ name ∈ c.names, ¬ Text.isBlankText name)
    (hprojections : ∀ projection ∈ s.projections, ∀ name ∈ projection.names,
      ¬ Text.isBlankText name) : s.NamedBy reg root filters where
  table := htable
  order := horder
  projections := hprojections
  joins := ⟨_, hjoins, hpredicate.1⟩
  tested := by
    rw [Statement.tested, hcondition, Option.map_map]
    exact hpredicate.2

theorem not_isBlankText_key (htable : ¬ Text.isBlankText root.table)
    (hprimary : ¬ Text.isBlankText root.primaryKey) :
    ∀ c ∈ some (⟨root.table, root.primaryKey⟩ : Column), ∀ name ∈ c.names,
      ¬ Text.isBlankText name := by
  intro c hc
  obtain rfl := Option.some.inj hc
  exact List.forall_mem_cons.2 ⟨htable, List.forall_mem_singleton.2 hprimary⟩

theorem namesChildren_selectChildren {target : Schema} {relation : Relation}
    (htable : ¬ Text.isBlankText target.table) (hprimary : ¬ Text.isBlankText target.primaryKey)
    (hkeyed : relation.Keyed) (keys : List Param) :
    (selectChildren target relation keys).NamesChildren target relation := by
  have horder := not_isBlankText_key htable hprimary
  have hforeign : (⟨target.table, relation.foreignKey⟩ : Column).IsForeignKey target relation :=
    ⟨rfl, htable, hkeyed.foreignKey⟩
  unfold selectChildren
  cases hvia : relation.via with
  | none =>
    refine ⟨htable, horder, List.forall_mem_singleton.2 htable, by simp, ?_⟩
    exact List.forall_mem_singleton.2 (.inl ⟨hvia, hforeign⟩)
  | some via =>
    obtain ⟨hlinkTable, hsourceKey, htargetKey⟩ := hkeyed.via via hvia
    have hsource : (⟨via.table, via.sourceKey⟩ : Column).IsLinkKey via via.sourceKey :=
      ⟨rfl, hlinkTable, hsourceKey⟩
    have howner : ¬ Text.isBlankText ownerKeyColumn := by decide
    refine ⟨htable, horder, ?_, ?_, ?_⟩
    · exact List.forall_mem_cons.2
        ⟨htable, List.forall_mem_singleton.2 ⟨⟨via, hvia, hsource⟩, howner⟩⟩
    · exact List.forall_mem_singleton.2 ⟨via, hvia, ⟨rfl, hlinkTable⟩, rfl,
        ⟨rfl, hlinkTable, htargetKey⟩, hforeign⟩
    · exact List.forall_mem_singleton.2 (.inr ⟨via, hvia, hsource⟩)

/-- **A blank name is one that the model declares for a key, a link table or a column.** In a model
that was accepted, whatever filters compile: in the joins of the predicate and in the statements of
the page and of the number no table of an entity, no alias, no primary key and no name of a result
is blank, no key of a relation and no link table is the empty text, and each filter tests the column
that the model declares for its own field. In the statement that asks for the children of a relation
all columns but the primary key are keys of the relation or of its link table, and not empty. -/
theorem blank_names_are_declared (c : Compiler) (hvalid : c.registry.validate = .ok ())
    (hroot : c.root ∈ c.registry.schemas) :
    (∀ filters (s : Builder) result, (c.compileAll filters s).1 = .ok result →
      (∀ p ∈ result, p.NamedBy c.registry c.root filters) ∧
      (∀ page, (selectPage c.root result page).NamedBy c.registry c.root filters) ∧
      (selectCount c.root result).NamedBy c.registry c.root filters) ∧
    ∀ owner ∈ c.registry.schemas, ∀ name relation, owner.relationAt? name = some relation →
      ∃ target, c.registry.entities.get? relation.target = some target ∧
        ∀ keys, (selectChildren target relation keys).NamesChildren target relation := by
  have hvalid := Registry.validate_eq_ok_iff.1 hvalid
  have htable := hvalid.table c.root hroot
  have hprimary := hvalid.primaryKey c.root hroot
  refine ⟨fun filters s result h => ?_, fun owner howner name relation hrelation => ?_⟩
  · have hnamed := named_of_compileAll hvalid hroot h
    have htotal : ¬ Text.isBlankText totalColumn := by decide
    have hkey := not_isBlankText_key htable hprimary
    refine ⟨?_, fun page => .of_predicate hnamed rfl rfl htable hkey ?_,
      .of_predicate hnamed rfl rfl htable nofun ?_⟩
    · rintro p rfl
      exact ⟨hnamed.1, hnamed.2⟩
    · exact List.forall_mem_singleton.2 (List.forall_mem_singleton.2 htable)
    · exact List.forall_mem_singleton.2
        (List.forall_mem_append.2 ⟨hkey _ rfl, List.forall_mem_singleton.2 htotal⟩)
  · obtain ⟨target, htarget⟩ := hvalid.target owner howner name relation hrelation
    have hmem := Registry.mem_schemas_of_get? htarget
    exact ⟨target, htarget, namesChildren_selectChildren (hvalid.table target hmem)
      (hvalid.primaryKey target hmem) (hvalid.keyed owner howner name relation hrelation)⟩

/-- The orders of a customer with a total of 25. -/
theorem blank_names_are_declared_of_orders :
    shopCompiler.registry.validate = .ok () ∧
      shopCompiler.root ∈ shopCompiler.registry.schemas ∧
      ∃ p, (shopCompiler.compileAll [.ofField "orders.total" .eq "25"] ({} : Builder)).1 =
          .ok (some p) ∧
        p.NamedBy shopCompiler.registry customers [.ofField "orders.total" .eq "25"] := by
  have hvalid : shopCompiler.registry.validate = .ok () := by decide +kernel
  have hroot : shopCompiler.root ∈ shopCompiler.registry.schemas := by decide +kernel
  have hcompiled : (shopCompiler.compileAll [.ofField "orders.total" .eq "25"] ({} : Builder)).1 =
      .ok (some ⟨.test ⟨"j1_orders", "total"⟩ (.equal (.int 25)),
        [⟨"orders", "j1_orders", "users", "id", "user_id"⟩]⟩) := by decide +kernel
  obtain ⟨hnamed, -⟩ := (blank_names_are_declared shopCompiler hvalid hroot).1 _ _ _ hcompiled
  exact ⟨hvalid, hroot, _, hcompiled, hnamed _ rfl⟩

/-- Items whose name is stored in a column without a name. -/
def unnamedItems : Schema := (Schema.new "item" "items").scalarColumn "name" "" .string

/-- The model is accepted, and a filter on the name tests the column without one. -/
theorem declared_column_can_be_blank :
    (Registry.ofList [unnamedItems]).validate = .ok () ∧
      unnamedItems ∈ (Registry.ofList [unnamedItems]).schemas ∧
      (({ registry := .ofList [unnamedItems], root := unnamedItems } : Compiler).compileAll
          [.ofField "name" .eq "x"] ({} : Builder)).1 =
        .ok (some ⟨.test ⟨"items", ""⟩ (.equal (.text "x")), []⟩) ∧
      Text.isBlankText "" := by
  exact ⟨by decide +kernel, by decide +kernel, by decide +kernel, by decide⟩

end Sql

end QuerySieve
