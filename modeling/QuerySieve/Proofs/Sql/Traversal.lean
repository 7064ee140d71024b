import QuerySieve.Proofs.Sql.Numbering

/-!
# QuerySieve.Proofs.Sql.Traversal

**No hop of a filter is lost, as long as its relations get aliases of their own.**

A join whose alias is there already is dropped without a word. Which paths suffer from that is
known exactly: the texts behind the aliases of a path differ if and only if its relations are
`NamedApart` (`nodup_stops_start_iff`). Then a filter has every join of its path
(`Predicate.JoinsEveryHop`); if not, it has fewer than its path needs (`length_foldl_pushJoin_lt`),
and the alias of a relation stands for what was joined before it.

The root keeps the name of its table. Whatever relations are called, a path has an alias of that
name exactly if the table is named like one (`mem_aliases_pathJoins_iff`).
-/

namespace QuerySieve

namespace Sql

/-! ### The joins of a path -/

/-- The joins lead from an alias along relations to another alias: a relation without a link table
by one join, from the local to the foreign key, and a relation with one by two, through the keys of
the link table. -/
inductive Traverses : String → List Hop → List JoinSpec → String → Prop
  | nil {source : String} : Traverses source [] [] source
  | direct {source target last : String} {hop : Hop} {hops : List Hop} {joins : List JoinSpec}
      (hvia : hop.relation.via = none) (hrest : Traverses target hops joins last) :
      Traverses source (hop :: hops)
        (⟨hop.target.table, target, source, hop.relation.localKey, hop.relation.foreignKey⟩
          :: joins) last
  | linked {source link target last : String} {hop : Hop} {hops : List Hop}
      {joins : List JoinSpec} {via : LinkTable} (hvia : hop.relation.via = some via)
      (hrest : Traverses target hops joins last) :
      Traverses source (hop :: hops)
        (⟨via.table, link, source, hop.relation.localKey, via.sourceKey⟩
          :: ⟨hop.target.table, target, link, via.targetKey, hop.relation.foreignKey⟩
          :: joins) last

/-- How many joins a relation takes. -/
def joinCount (hop : Hop) : Nat := if hop.relation.via.isSome then 2 else 1

theorem Traverses.length_eq {source last : String} {hops : List Hop} {joins : List JoinSpec}
    (h : Traverses source hops joins last) : joins.length = (hops.map joinCount).sum := by
  induction h with
  | nil => rfl
  | direct hvia _ ih =>
    rw [List.length_cons, ih, List.map_cons, List.sum_cons, joinCount, hvia, Nat.add_comm]
    rfl
  | linked hvia _ ih =>
    rw [List.length_cons, List.length_cons, ih, List.map_cons, List.sum_cons, joinCount, hvia,
      Nat.add_comm _ 1, Nat.add_comm _ 1, ← Nat.add_assoc]
    rfl

theorem traverses_entryJoins (entry : Nat) (source relations : String) (hops : List Hop) :
    Traverses source hops (entryJoins entry source relations hops)
      (endAlias entry source relations hops) := by
  induction hops generalizing source relations with
  | nil => exact .nil
  | cons hop hops ih =>
    rw [entryJoins, endAlias, hopJoins]
    cases hvia : hop.relation.via with
    | none => exact .direct hvia (ih _ _)
    | some via => exact .linked hvia (ih _ _)

/-! ### Joins that are dropped -/

variable {left right : List JoinSpec}

theorem length_foldl_pushJoin_le (left right : List JoinSpec) :
    (right.foldl pushJoin left).length ≤ left.length + right.length := by
  induction right generalizing left with
  | nil => exact Nat.le_refl _
  | cons j js ih =>
    have hone : (pushJoin left j).length ≤ left.length + 1 := by
      unfold pushJoin
      split <;> simp
    have hrest := ih (pushJoin left j)
    rw [List.foldl_cons, List.length_cons]
    omega

/-- Where an alias comes twice a join is dropped. -/
theorem length_foldl_pushJoin_lt (hleft : (aliases left).Nodup)
    (h : ¬ (aliases (left ++ right)).Nodup) :
    (right.foldl pushJoin left).length < left.length + right.length := by
  induction right generalizing left with
  | nil => exact absurd (by simpa using hleft) h
  | cons j js ih =>
    rw [List.foldl_cons, List.length_cons]
    by_cases hj : j.tableAlias ∈ aliases left
    · have hrest := length_foldl_pushJoin_le left js
      rw [pushJoin_of_mem hj]
      omega
    · have hnodup := nodup_pushJoin hleft (j := j)
      rw [pushJoin_of_not_mem hj] at hnodup ⊢
      have hrest := ih hnodup (by rwa [List.append_assoc])
      rw [List.length_append, List.length_singleton] at hrest
      omega

/-! ### Relations with aliases of their own -/

/-- The relations of a path get aliases of their own: none that follows a link table is called
`via`, as that table is. A first relation without a name leaves the text of the alias empty, so that
the second begins it anew; then the second needs a name, and not that of a link table there. -/
def NamedApart : List Hop → Prop
  | [] => True
  | hop :: hops =>
    if hop.name = "" then
      (∀ next ∈ hops.head?, next.name ≠ "" ∧
        (hop.relation.via.isSome → next.name ≠ aliasMark ++ "via")) ∧ hops.IsChain KeepsApart
    else (hop :: hops).IsChain KeepsApart

/-- At the start of a text the mark of a link table is no more than a name. -/
theorem eq_empty_of_append_mark {name more : String}
    (h : aliasMark ++ "via" = name ++ (aliasMark ++ more)) : name = "" := by
  have hlist := congrArg String.toList h
  simp only [aliasMark, String.toList_append] at hlist
  rw [← String.toList_inj]
  generalize name.toList = cs at hlist
  -- the mark stands nowhere else in the text
  rcases cs with _ | ⟨a, _ | ⟨b, _ | ⟨c, _ | ⟨d, _ | ⟨e, cs⟩⟩⟩⟩⟩ <;> simp_all

theorem nodup_stops_unnamed_iff {hop : Hop} {hops : List Hop} (hname : hop.name = "") :
    (stops "" (hop :: hops)).Nodup ↔ (∀ next ∈ hops.head?, next.name ≠ "" ∧
      (hop.relation.via.isSome → next.name ≠ aliasMark ++ "via")) ∧ hops.IsChain KeepsApart := by
  have hempty : extendRelations "" hop.name = "" := hname
  rw [nodup_stops_cons_iff, hempty]
  cases hops with
  | nil => simp [stops]
  | cons next hops =>
    by_cases hunnamed : next.name = ""
    · have hagain : "" ∈ stops "" (next :: hops) := mem_stops_cons.2 (.inl hunnamed.symm)
      simp [hagain, hunnamed]
    · have hnext : extendRelations "" next.name ≠ "" := hunnamed
      have hself : "" ∉ stops "" (next :: hops) := by
        intro h
        obtain ⟨rest, htext, -⟩ := exists_rest_of_mem_stops hnext h
        exact hnext (String.append_eq_empty_iff.1 htext.symm).1
      have hvia : "" ++ aliasMark ++ "via" ∈ stops "" (next :: hops) ↔
          next.name = aliasMark ++ "via" := by
        constructor
        · intro h
          obtain ⟨rest, htext, rfl | ⟨more, rfl⟩⟩ := exists_rest_of_mem_stops hnext h
          · exact (htext.trans (String.append_empty ..)).symm
          · exact absurd (eq_empty_of_append_mark htext) hnext
        · exact fun h => mem_stops_cons.2 (.inl h.symm)
      rw [nodup_stops_iff hnext, hvia]
      simp [hself, hunnamed]

theorem nodup_stops_start_iff (hops : List Hop) : (stops "" hops).Nodup ↔ NamedApart hops := by
  cases hops with
  | nil => simp [stops, NamedApart]
  | cons hop hops =>
    rw [NamedApart]
    split
    next hname => exact nodup_stops_unnamed_iff hname
    next hname => exact nodup_stops_iff hname

/-! ### Every hop is joined -/

/-- The predicate has the joins of the whole path, each under an alias of its own, and tests where
the path ends. -/
structure Predicate.JoinsEveryHop (root : String) (hops : List Hop) (p : Predicate) : Prop where
  traverses : ∃ last, Traverses root hops p.joins last ∧
    ∀ leaf ∈ p.condition.leaves, leaf.1.qualifier = last
  nodup : (aliases p.joins).Nodup

theorem nodup_aliases_entryJoins_iff {entry : Nat} {source : String} {hops : List Hop} :
    (aliases (entryJoins entry source "" hops)).Nodup ↔ NamedApart hops := by
  rw [aliases_entryJoins, List.nodup_map_iff fun _ _ h => (joinAlias_inj h).2,
    nodup_stops_start_iff]

theorem traverses_pathJoins (root : Schema) (entry : Nat) {hops : List Hop}
    (h : NamedApart hops) :
    Traverses (rootAlias root) hops (pathJoins root entry hops)
      (hops.foldl Path.follow (Path.start root entry)).tableAlias := by
  obtain ⟨hjoins, halias⟩ :=
    @foldl_follow (Path.start root entry) hops (nodup_aliases_entryJoins_iff.2 h)
  rw [pathJoins, hjoins, halias]
  exact traverses_entryJoins entry (rootAlias root) "" hops

/-- A name is an alias of a path exactly if the number of the entry and one of the texts of the path
make it up. A join that is dropped has an alias that is there already. -/
theorem mem_aliases_pathJoins_iff {root : Schema} {entry : Nat} {hops : List Hop} {name : String} :
    name ∈ aliases (pathJoins root entry hops) ↔
      ∃ relations ∈ stops "" hops, name = joinAlias entry relations := by
  have hpushed : name ∈ aliases (pathJoins root entry hops) ↔
      name ∈ aliases (entryJoins entry (rootAlias root) "" hops) := by
    rw [pathJoins, (foldl_follow_eq (Path.start root entry) hops).1, mem_aliases_foldl_pushJoin]
    exact or_iff_right List.not_mem_nil
  rw [hpushed, aliases_entryJoins, List.mem_map]
  exact exists_congr fun relations => and_congr_right fun _ => eq_comm

/-- A path whose relations do not get aliases of their own lacks a join. -/
theorem length_pathJoins_lt (root : Schema) (entry : Nat) {hops : List Hop}
    (h : ¬ NamedApart hops) :
    (pathJoins root entry hops).length < (hops.map joinCount).sum := by
  have hclash : ¬ (aliases ([] ++ entryJoins entry (rootAlias root) "" hops)).Nodup :=
    mt nodup_aliases_entryJoins_iff.1 h
  have hlost := length_foldl_pushJoin_lt (by simp) hclash
  rw [(traverses_entryJoins entry (rootAlias root) "" hops).length_eq, List.length_nil,
    Nat.zero_add] at hlost
  rw [pathJoins, (foldl_follow_eq (Path.start root entry) hops).1]
  exact hlost

/-- **Every hop of a filter is joined, if the relations get aliases of their own.** A filter whose
path resolves and whose value suits the field compiles. If the relations on its path are
`NamedApart`, the predicate has one join for each relation without a link table and two for each
with one, in the order of the path and on the declared keys, and all aliases differ. If they are
not, a join is missing. In both cases an alias is the root's own name exactly if the root's table is
called like an alias that the relations on the path make up. -/
theorem every_hop_is_joined {c : Compiler} {e : FilterExpression} {resolved : ResolvedPath}
    (s : Builder) (hpath : c.registry.Resolves c.root e.path resolved)
    (hfits : e.Fits c.strictBooleans resolved.type) :
    ∃ p : Predicate, (c.compileAll [e] s).1 = .ok (some p) ∧
      (NamedApart resolved.hops →
        p.JoinsEveryHop (rootAlias c.root) resolved.hops ∧
          p.joins.length = (resolved.hops.map joinCount).sum) ∧
      (¬ NamedApart resolved.hops →
        p.joins.length < (resolved.hops.map joinCount).sum) ∧
      (rootAlias c.root ∈ aliases p.joins ↔ ∃ relations ∈ stops "" resolved.hops,
        c.root.table = joinAlias (s.entries + 1) relations) := by
  obtain ⟨comparison, hcomparison⟩ := FilterExpression.exists_comparison_eq_ok_iff.2 hfits
  have hcheck : c.check e = .ok ⟨resolved, comparison⟩ :=
    Compiler.check_eq_ok_iff.2 ⟨hpath, hcomparison⟩
  have hone := Compiler.compileOne_of_check_eq_ok hcheck s
  refine ⟨_, congrArg Prod.fst (Compiler.compileAll_singleton (congrArg Prod.fst hone)), ?_, ?_, ?_⟩
  · intro hapart
    have htraverses := traverses_pathJoins c.root (s.entries + 1) hapart
    refine ⟨⟨⟨_, joins_test_reach c.root ⟨resolved, comparison⟩ s ▸ htraverses, ?_⟩, ?_⟩, ?_⟩
    · intro leaf hleaf
      rw [List.mem_singleton.1 hleaf, reach_eq]
      rfl
    · rw [joins_test_reach]
      exact nodup_aliases_pathJoins ..
    · rw [joins_test_reach]
      exact htraverses.length_eq
  · intro hclash
    rw [joins_test_reach]
    exact length_pathJoins_lt c.root (s.entries + 1) hclash
  · rw [joins_test_reach]
    exact mem_aliases_pathJoins_iff

/-! ### Groups of accounts, their owners and their channels -/

/-- Accounts are in groups. -/
def mailAccount : Schema :=
  (Schema.new "account" "accounts").scalar "id" .long |>.relation "groups"
    ⟨"group", .toMany, "id", "id", some ⟨"memberships", "account_id", "group_id"⟩⟩

/-- A group has an owner, and a channel that it is reached by. -/
def mailGroup : Schema :=
  (Schema.new "group" "groups").toOne "owner" "account" "owner_id" "id"
    |>.toOne "via" "channel" "via_id" "id"

/-- Channels with their names. -/
def mailChannel : Schema := (Schema.new "channel" "channels").scalar "name" .string

/-- Compiles filters on accounts. -/
def mailCompiler : Compiler :=
  { registry := .ofList [mailAccount, mailGroup, mailChannel], root := mailAccount }

/-- The relation from accounts to their groups. -/
def mailGroups : Hop :=
  ⟨"groups", ⟨"group", .toMany, "id", "id", some ⟨"memberships", "account_id", "group_id"⟩⟩,
    mailGroup⟩

/-- From an account to the owners of its groups. -/
def ownerPath : ResolvedPath :=
  ⟨[mailGroups, ⟨"owner", ⟨"account", .toOne, "owner_id", "id", none⟩, mailAccount⟩],
    ⟨"id", .scalar .long none⟩, .long⟩

/-- From an account to the channels of its groups. -/
def channelPath : ResolvedPath :=
  ⟨[mailGroups, ⟨"via", ⟨"channel", .toOne, "via_id", "id", none⟩, mailChannel⟩],
    ⟨"name", .scalar .string none⟩, .string⟩

/-- To the owner of a group it is three joins, and none is under the name of the accounts. -/
theorem every_hop_is_joined_of_owner :
    mailCompiler.registry.Resolves mailAccount ["groups", "owner", "id"] ownerPath ∧
      NamedApart ownerPath.hops ∧
      ∃ p : Predicate,
        (mailCompiler.compileAll [.ofField "groups.owner.id" .eq "7"] ({} : Builder)).1 =
          .ok (some p) ∧
        p.JoinsEveryHop "accounts" ownerPath.hops ∧ p.joins.length = 3 ∧
        "accounts" ∉ aliases p.joins := by
  have hpath : mailCompiler.registry.Resolves mailAccount ["groups", "owner", "id"] ownerPath :=
    Registry.resolve_eq_ok_iff.1 (by decide +kernel)
  have hcomparison : (FilterExpression.ofField "groups.owner.id" .eq "7").comparison false .long =
      .ok (.equal (.long 7)) := by decide +kernel
  have hapart : NamedApart ownerPath.hops := by
    simp [NamedApart, KeepsApart, ownerPath, mailGroups]
  have hroot : ¬ ∃ relations ∈ stops "" ownerPath.hops, "accounts" = joinAlias 1 relations := by
    decide +kernel
  obtain ⟨p, hp, hjoins, -, halias⟩ := every_hop_is_joined (c := mailCompiler)
    (e := .ofField "groups.owner.id" .eq "7") {} hpath
    (FilterExpression.exists_comparison_eq_ok_iff.1 ⟨_, hcomparison⟩)
  obtain ⟨hevery, hlength⟩ := hjoins hapart
  exact ⟨hpath, hapart, p, hp, hevery, hlength, mt halias.1 hroot⟩

/-- The channel has the alias of the link table, so it is not joined, and its name is sought in the
link table, though the model is sound and the path resolves. -/
theorem channel_is_not_joined :
    mailCompiler.registry.validate = .ok () ∧
      mailCompiler.registry.Resolves mailAccount ["groups", "via", "name"] channelPath ∧
      (mailCompiler.compileAll [.ofField "groups.via.name" .eq "mail"] ({} : Builder)).1 =
        .ok (some channelTest) ∧
      ¬ channelTest.JoinsEveryHop "accounts" channelPath.hops := by
  refine ⟨by decide +kernel, Registry.resolve_eq_ok_iff.1 (by decide +kernel), by decide +kernel,
    fun h => ?_⟩
  obtain ⟨last, htraverses, -⟩ := h.traverses
  exact absurd htraverses.length_eq (by decide)

end Sql

end QuerySieve
