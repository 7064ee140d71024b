import QuerySieve.Proofs.Sql.Aliases
import QuerySieve.Proofs.Typing

/-!
# QuerySieve.Proofs.Sql.Numbering

**Filter entries never share or steal each other's joins.**

Whatever relations are called, every alias of an entry carries the entry's number
(`Path.Numbered.follow`), and a number is never used twice: the paths that a builder has started,
in compilations that succeed or fail, are numbered through (`entries_pathsInTurn`). So a conjunction
of predicates from different entries keeps all their joins (`Predicate.Spans.joins_conj`).

What an entry does to its own joins has nothing to do with its number: in two entries one path gets
joins that differ by the number alone (`renumbered_pathJoins`), also where names clash and a join is
dropped.
-/

namespace QuerySieve

namespace Sql

variable {name : String} {entry : Nat}

/-! ### The joins of one entry -/

/-- The alias carries the number. -/
def Numbered (entry : Nat) (name : String) : Prop := ∃ text, name = joinAlias entry text

theorem Numbered.unique {m n : Nat} (hm : Numbered m name) (hn : Numbered n name) : m = n := by
  obtain ⟨text, rfl⟩ := hm
  obtain ⟨other, h⟩ := hn
  exact (joinAlias_inj h).1

/-- The aliases of a path differ and carry the number of its entry. -/
structure Path.Numbered (path : Path) : Prop where
  nodup : (aliases path.joins).Nodup
  numbered : ∀ name ∈ aliases path.joins, Sql.Numbered path.entry name

theorem Path.Numbered.follow {path : Path} (h : path.Numbered) (hop : Hop) :
    (path.follow hop).Numbered where
  nodup := nodup_foldl_pushJoin h.nodup
  numbered := by
    intro name hname
    rcases mem_aliases_foldl_pushJoin.1 hname with hold | hnew
    · exact h.numbered name hold
    · rw [aliases_hopJoins] at hnew
      obtain ⟨text, -, rfl⟩ := List.mem_map.1 hnew
      exact ⟨text, rfl⟩

theorem Path.Numbered.foldl_follow {path : Path} (h : path.Numbered) (hops : List Hop) :
    (hops.foldl Path.follow path).Numbered := by
  induction hops generalizing path with
  | nil => exact h
  | cons hop hops ih => exact ih (h.follow hop)

/-- The joins of a path along relations, in the entry of a number. -/
def pathJoins (root : Schema) (entry : Nat) (hops : List Hop) : List JoinSpec :=
  (hops.foldl Path.follow (Path.start root entry)).joins

theorem numbered_start (root : Schema) (entry : Nat) : (Path.start root entry).Numbered :=
  ⟨List.nodup_nil, fun _ h => absurd h List.not_mem_nil⟩

theorem nodup_aliases_pathJoins (root : Schema) (entry : Nat) (hops : List Hop) :
    (aliases (pathJoins root entry hops)).Nodup :=
  ((numbered_start root entry).foldl_follow hops).nodup

theorem numbered_of_mem_aliases_pathJoins {root : Schema} {hops : List Hop}
    (h : name ∈ aliases (pathJoins root entry hops)) : Numbered entry name := by
  have hnumbered := ((numbered_start root entry).foldl_follow hops).numbered name h
  rwa [(follow_foldl hops _).1] at hnumbered

/-! ### One path in two entries -/

/-- The names are alike but for the number of their entry. The root goes by its own name. -/
inductive SameText (root : String) (m n : Nat) : String → String → Prop
  | root : SameText root m n root root
  | alias (text : String) : SameText root m n (joinAlias m text) (joinAlias n text)

/-- The joins are alike but for the number of their entry. -/
structure JoinSpec.Renumbered (root : String) (m n : Nat) (j k : JoinSpec) : Prop where
  table : j.table = k.table
  tableAlias : ∃ text, j.tableAlias = joinAlias m text ∧ k.tableAlias = joinAlias n text
  leftAlias : SameText root m n j.leftAlias k.leftAlias
  leftColumn : j.leftColumn = k.leftColumn
  rightColumn : j.rightColumn = k.rightColumn

variable {root : String} {m n : Nat}

theorem renumbered_hopJoins {source source' : String} (h : SameText root m n source source')
    (text : String) (hop : Hop) :
    List.Forall₂ (JoinSpec.Renumbered root m n) (hopJoins source (joinAlias m text) hop)
      (hopJoins source' (joinAlias n text) hop) := by
  unfold hopJoins
  cases hop.relation.via with
  | none => exact .cons ⟨rfl, ⟨text, rfl, rfl⟩, h, rfl, rfl⟩ .nil
  | some via =>
    rw [linkAlias_joinAlias, linkAlias_joinAlias]
    exact .cons ⟨rfl, ⟨_, rfl, rfl⟩, h, rfl, rfl⟩
      (.cons ⟨rfl, ⟨text, rfl, rfl⟩, .alias _, rfl, rfl⟩ .nil)

/-- In both entries the same joins are there already. -/
theorem renumbered_pushJoin {js ks : List JoinSpec} {j k : JoinSpec}
    (hjoins : List.Forall₂ (JoinSpec.Renumbered root m n) js ks) (h : j.Renumbered root m n k) :
    List.Forall₂ (JoinSpec.Renumbered root m n) (pushJoin js j) (pushJoin ks k) := by
  obtain ⟨text, hj, hk⟩ := h.tableAlias
  have hclash : (js.any fun i => i.tableAlias = j.tableAlias) =
      ks.any fun i => i.tableAlias = k.tableAlias := by
    induction hjoins with
    | nil => rfl
    | @cons a b js ks hab _ ih =>
      obtain ⟨other, ha, hb⟩ := hab.tableAlias
      have hsame : joinAlias m other = joinAlias m text ↔ joinAlias n other = joinAlias n text :=
        ⟨fun h => congrArg _ (joinAlias_inj h).2, fun h => congrArg _ (joinAlias_inj h).2⟩
      rw [List.any_cons, List.any_cons, ih, ha, hj, hb, hk]
      simp only [hsame]
  unfold pushJoin
  rw [hclash]
  split
  · exact hjoins
  · exact List.rel_append hjoins (.cons h .nil)

theorem renumbered_foldl_pushJoin {js ks more more' : List JoinSpec}
    (hjoins : List.Forall₂ (JoinSpec.Renumbered root m n) js ks)
    (hmore : List.Forall₂ (JoinSpec.Renumbered root m n) more more') :
    List.Forall₂ (JoinSpec.Renumbered root m n) (more.foldl pushJoin js)
      (more'.foldl pushJoin ks) := by
  induction hmore generalizing js ks with
  | nil => exact hjoins
  | cons h _ ih => exact ih (renumbered_pushJoin hjoins h)

/-- The paths are alike but for the number of their entry. -/
structure Path.Renumbered (root : String) (m n : Nat) (p q : Path) : Prop where
  left : p.entry = m
  right : q.entry = n
  relations : p.relations = q.relations
  tableAlias : SameText root m n p.tableAlias q.tableAlias
  joins : List.Forall₂ (JoinSpec.Renumbered root m n) p.joins q.joins

theorem Path.Renumbered.follow {p q : Path} (h : Path.Renumbered root m n p q) (hop : Hop) :
    Path.Renumbered root m n (p.follow hop) (q.follow hop) := by
  obtain ⟨rfl, rfl, hrelations, halias, hjoins⟩ := h
  have hnext : extendRelations q.relations hop.name = extendRelations p.relations hop.name := by
    rw [hrelations]
  refine ⟨rfl, rfl, hnext.symm, ?_, ?_⟩
  · rw [Path.follow, Path.follow, hnext]
    exact .alias _
  · rw [Path.follow, Path.follow, hnext]
    exact renumbered_foldl_pushJoin hjoins (renumbered_hopJoins halias _ hop)

/-- A path gets the same joins in every entry, but for its number. -/
theorem renumbered_pathJoins (root : Schema) (m n : Nat) (hops : List Hop) :
    List.Forall₂ (JoinSpec.Renumbered (rootAlias root) m n) (pathJoins root m hops)
      (pathJoins root n hops) := by
  have hpaths : ∀ {p q : Path}, Path.Renumbered (rootAlias root) m n p q →
      Path.Renumbered (rootAlias root) m n (hops.foldl Path.follow p)
        (hops.foldl Path.follow q) := by
    induction hops with
    | nil => exact fun h => h
    | cons hop hops ih => exact fun h => ih (h.follow hop)
  have hstart : Path.Renumbered (rootAlias root) m n (Path.start root m) (Path.start root n) :=
    ⟨rfl, rfl, rfl, .root, .nil⟩
  exact (hpaths hstart).joins

/-! ### Conjoining different entries -/

/-- The aliases of a predicate differ and carry numbers from a range of entries. -/
structure Predicate.Spans (low high : Nat) (p : Predicate) : Prop where
  nodup : (aliases p.joins).Nodup
  numbered : ∀ name ∈ aliases p.joins, ∃ entry, low < entry ∧ entry ≤ high ∧ Numbered entry name

/-- Predicates of different entries are conjoined without the loss of a join. -/
theorem Predicate.Spans.joins_conj {a b m n : Nat} {p q : Predicate} (hp : p.Spans a b)
    (hq : q.Spans m n) (h : b ≤ m ∨ n ≤ a) : (p.conj q).joins = p.joins ++ q.joins := by
  refine foldl_pushJoin ?_
  rw [aliases_append]
  refine List.nodup_append.2 ⟨hp.nodup, hq.nodup, fun name hleft other hright heq => ?_⟩
  subst heq
  -- an alias of both would carry one number out of each range
  obtain ⟨first, hfirst⟩ := hp.numbered name hleft
  obtain ⟨second, hsecond⟩ := hq.numbered name hright
  have hsame := hfirst.2.2.unique hsecond.2.2
  omega

theorem Predicate.Spans.conj {a b m : Nat} {p q : Predicate} (hp : p.Spans a b)
    (hq : q.Spans b m) (hab : a ≤ b) (hbm : b ≤ m) : (p.conj q).Spans a m where
  nodup := nodup_foldl_pushJoin hp.nodup
  numbered := by
    rw [hp.joins_conj hq (.inl (Nat.le_refl b)), aliases_append]
    intro name hname
    rcases List.mem_append.1 hname with hleft | hright
    · obtain ⟨entry, hlow, hhigh, hnumbered⟩ := hp.numbered name hleft
      exact ⟨entry, hlow, by omega, hnumbered⟩
    · obtain ⟨entry, hlow, hhigh, hnumbered⟩ := hq.numbered name hright
      exact ⟨entry, by omega, hhigh, hnumbered⟩

theorem Predicate.Spans.mono {a b low : Nat} {p : Predicate} (h : p.Spans a b) (hlow : low ≤ a) :
    p.Spans low b where
  nodup := h.nodup
  numbered := by
    intro name hname
    obtain ⟨entry, hentry, hrest⟩ := h.numbered name hname
    exact ⟨entry, by omega, hrest⟩

theorem joins_test_reach (root : Schema) (f : CheckedFilter) (s : Builder) :
    (PredicateBuilder.test Builder (PredicateBuilder.reach root f.path s).1 f.comparison
      : Predicate).joins = pathJoins root (s.entries + 1) f.path.hops := by
  rw [reach_eq]
  rfl

theorem spans_test_reach (root : Schema) (f : CheckedFilter) (s : Builder) :
    (PredicateBuilder.test Builder (PredicateBuilder.reach root f.path s).1 f.comparison
      : Predicate).Spans s.entries (s.entries + 1) where
  nodup := by
    rw [joins_test_reach]
    exact nodup_aliases_pathJoins ..
  numbered := by
    rw [joins_test_reach]
    exact fun name hname => ⟨s.entries + 1, by omega, by omega,
      numbered_of_mem_aliases_pathJoins hname⟩

theorem afterBuild_eq (root : Schema) (fs : List CheckedFilter) (s : Builder) :
    PredicateBuilder.afterBuild root fs s = ⟨s.entries + fs.length⟩ := by
  induction fs generalizing s with
  | nil => rfl
  | cons f fs ih =>
    show PredicateBuilder.afterBuild root fs (PredicateBuilder.reach root f.path s).2 = _
    rw [reach_snd, ih, List.length_cons, Nat.add_comm fs.length, ← Nat.add_assoc]

/-- The joins of checked filters in entries from a number on. -/
def joinsFrom (root : Schema) (first : Nat) (fs : List CheckedFilter) : List JoinSpec :=
  (fs.zipIdx first).flatMap fun (f, entry) => pathJoins root entry f.path.hops

theorem joinsFrom_cons (root : Schema) (first : Nat) (f : CheckedFilter) (fs : List CheckedFilter) :
    joinsFrom root first (f :: fs) =
      pathJoins root first f.path.hops ++ joinsFrom root (first + 1) fs := rfl

theorem joinsFrom_append (root : Schema) (first : Nat) (fs gs : List CheckedFilter) :
    joinsFrom root first (fs ++ gs) =
      joinsFrom root first fs ++ joinsFrom root (first + fs.length) gs := by
  rw [joinsFrom, List.zipIdx_append, List.flatMap_append]
  rfl

/-- Each filter that is conjoined adds the joins of the next entry to those that are there. -/
theorem conjoin_build_spec {root : Schema} {low : Nat} {acc : Option Predicate}
    {fs : List CheckedFilter} {s : Builder} (hlow : low ≤ s.entries)
    (hacc : ∀ p ∈ acc, p.Spans low s.entries) :
    ∀ p ∈ PredicateBuilder.conjoin Builder acc (PredicateBuilder.build root fs s),
      p.Spans low (s.entries + fs.length) ∧
        p.joins = joinsOf acc ++ joinsFrom root (s.entries + 1) fs := by
  induction fs generalizing acc s with
  | nil =>
    intro p hp
    obtain rfl : acc = some p := hp
    exact ⟨hacc p rfl, (List.append_nil _).symm⟩
  | cons f fs ih =>
    intro p hp
    have hone := spans_test_reach root f s
    -- the filter's own predicate is conjoined first, whatever was there
    obtain ⟨first, hfirst, hspans, hjoins⟩ : ∃ first : Predicate,
        PredicateBuilder.andOption (σ := Builder) acc (PredicateBuilder.test Builder
          (PredicateBuilder.reach root f.path s).1 f.comparison) = first ∧
        first.Spans low (s.entries + 1) ∧
        first.joins = joinsOf acc ++ pathJoins root (s.entries + 1) f.path.hops := by
      refine ⟨_, rfl, ?_⟩
      cases acc with
      | none => exact ⟨hone.mono hlow, joins_test_reach root f s⟩
      | some q =>
        have hq := hacc q rfl
        refine ⟨hq.conj hone hlow (by omega), ?_⟩
        rw [← joins_test_reach]
        exact hq.joins_conj hone (.inl (Nat.le_refl _))
    have hconjoined : PredicateBuilder.conjoin Builder (some first)
        (PredicateBuilder.build root fs (⟨s.entries + 1⟩ : Builder)) = some p := by
      rw [← hfirst, ← reach_snd root f.path s]
      exact hp
    have hrest := ih (Nat.le_succ_of_le hlow) (fun q hq => Option.some.inj hq ▸ hspans) p hconjoined
    refine ⟨?_, ?_⟩
    · have hlength : s.entries + (f :: fs).length = s.entries + 1 + fs.length := by
        rw [List.length_cons]
        omega
      rw [hlength]
      exact hrest.1
    · rw [hrest.2, joinsFrom_cons, ← List.append_assoc, ← hjoins]
      rfl

theorem spans_of_conjoin_build_eq_some {root : Schema} {fs : List CheckedFilter} {s : Builder}
    {p : Predicate}
    (h : PredicateBuilder.conjoin Builder none (PredicateBuilder.build root fs s) = some p) :
    p.Spans s.entries (s.entries + fs.length) ∧ p.joins = joinsFrom root (s.entries + 1) fs :=
  conjoin_build_spec (Nat.le_refl s.entries) (fun _ h => by cases h) p h

theorem joinsOf_conjoin_build (root : Schema) (fs : List CheckedFilter) (s : Builder) :
    joinsOf (PredicateBuilder.conjoin Builder none (PredicateBuilder.build root fs s)) =
      joinsFrom root (s.entries + 1) fs := by
  cases h : PredicateBuilder.conjoin Builder none (PredicateBuilder.build root fs s) with
  | none =>
    obtain ⟨-, hempty⟩ := PredicateBuilder.conjoin_eq_none_iff.1 h
    rw [PredicateBuilder.build_eq_nil_iff.1 hempty]
    rfl
  | some p => exact (spans_of_conjoin_build_eq_some h).2

/-- Forced filters come before the entries of the request's own, so both keep their joins. -/
theorem joinsOf_combine {a b d : Nat} {forced own : Option Predicate}
    (hforced : ∀ p ∈ forced, p.Spans a b) (hown : ∀ q ∈ own, q.Spans b d) :
    joinsOf (Planner.combine (σ := Builder) forced own) = joinsOf forced ++ joinsOf own := by
  cases forced with
  | none => cases own <;> rfl
  | some p =>
    cases own with
    | none => exact (List.append_nil _).symm
    | some q => exact (hforced p rfl).joins_conj (hown q rfl) (.inl (Nat.le_refl b))

/-! ### What a filter joins on its own -/

/-- The joins are those of a filter that is compiled alone by a new builder, but for the number of
the entry. -/
def OwnJoins (c : Compiler) (numbered : FilterExpression × Nat) (joins : List JoinSpec) : Prop :=
  ∃ alone : Predicate, (c.compileAll [numbered.1] ({} : Builder)).1 = .ok (some alone) ∧
    List.Forall₂ (JoinSpec.Renumbered (rootAlias c.root) 1 numbered.2) alone.joins joins

/-- The joins are those that the filters have on their own, one after the other, in entries from a
number on. -/
def JoinsInTurn (c : Compiler) (es : List FilterExpression) (first : Nat) (joins : List JoinSpec) :
    Prop :=
  ∃ parts : List (List JoinSpec), joins = parts.flatten ∧
    List.Forall₂ (OwnJoins c) (es.zipIdx first) parts

variable {c : Compiler} {e : FilterExpression} {es : List FilterExpression} {f : CheckedFilter}
variable {fs : List CheckedFilter}

theorem ownJoins_of_check (h : c.check e = .ok f) (entry : Nat) :
    OwnJoins c (e, entry) (pathJoins c.root entry f.path.hops) := by
  have hone := Compiler.compileOne_of_check_eq_ok h ({} : Builder)
  refine ⟨_, by rw [Compiler.compileAll_singleton (congrArg Prod.fst hone)], ?_⟩
  rw [joins_test_reach]
  exact renumbered_pathJoins c.root 1 entry f.path.hops

theorem joinsInTurn_of_check (h : List.Forall₂ (fun e f => c.check e = .ok f) es fs) (first : Nat) :
    JoinsInTurn c es first (joinsFrom c.root first fs) := by
  induction h generalizing first with
  | nil => exact ⟨[], rfl, .nil⟩
  | cons hcheck _ ih =>
    obtain ⟨parts, hjoins, hparts⟩ := ih (first + 1)
    exact ⟨_ :: parts, congrArg _ hjoins, .cons (ownJoins_of_check hcheck first) hparts⟩

/-! ### What a compilation starts -/

/-- The paths that a compilation starts: one for each filter whose path resolves, up to the first
filter that is refused. -/
def started (c : Compiler) : List FilterExpression → Builder → List Path
  | [], _ => []
  | e :: es, s =>
    match c.registry.resolve c.root e.path with
    | .error _ => []
    | .ok resolved =>
      let (path, next) := PredicateBuilder.reach c.root resolved s
      path :: match e.comparison c.strictBooleans resolved.type with
        | .error _ => []
        | .ok _ => started c es next

theorem numbered_reach (root : Schema) (resolved : ResolvedPath) (s : Builder) :
    (PredicateBuilder.reach root resolved s).1.entry = s.entries + 1 ∧
      (PredicateBuilder.reach root resolved s).1.Numbered := by
  rw [reach_eq]
  have hpath := (numbered_start root (s.entries + 1)).foldl_follow resolved.hops
  exact ⟨(follow_foldl resolved.hops _).1, hpath.nodup, hpath.numbered⟩

/-- The paths of a compilation have the numbers after those that were given before, and these are
then the numbers that have been given. -/
theorem started_spec (c : Compiler) (acc : Option Predicate) (es : List FilterExpression)
    (s : Builder) :
    (c.compileOnto acc es s).2.entries = s.entries + (started c es s).length ∧
      (started c es s).map (·.entry) = List.range' (s.entries + 1) (started c es s).length ∧
      ∀ path ∈ started c es s, path.Numbered := by
  induction es generalizing acc s with
  | nil => exact ⟨rfl, rfl, fun _ h => absurd h List.not_mem_nil⟩
  | cons e es ih =>
    unfold started Compiler.compileOnto Compiler.compileOne
    cases hresolve : c.registry.resolve c.root e.path with
    | error error => exact ⟨rfl, rfl, fun _ h => absurd h List.not_mem_nil⟩
    | ok resolved =>
      obtain ⟨hentry, hnumbered⟩ := numbered_reach c.root resolved s
      cases hcomparison : e.comparison c.strictBooleans resolved.type with
      | error error =>
        -- the path is started, though nothing comes of it
        simp only [hcomparison, Except.map, reach_snd]
        exact ⟨rfl, by simp [hentry], by simpa using hnumbered⟩
      | ok comparison =>
        obtain ⟨hstate, hentries, hpaths⟩ := ih (some (PredicateBuilder.andOption (σ := Builder) acc
          (PredicateBuilder.test Builder (PredicateBuilder.reach c.root resolved s).1 comparison)))
          ⟨s.entries + 1⟩
        simp only [hcomparison, Except.map, reach_snd]
        refine ⟨?_, ?_, List.forall_mem_cons.2 ⟨hnumbered, hpaths⟩⟩
        · rw [hstate, List.length_cons]
          show s.entries + 1 + _ = _
          omega
        · rw [List.map_cons, hentry, hentries, List.length_cons, List.range'_succ]

/-- What is compiled has the joins of the paths that were started for it. -/
theorem joins_started_of_check (h : List.Forall₂ (fun e f => c.check e = .ok f) es fs)
    (s : Builder) : (started c es s).flatMap (·.joins) = joinsFrom c.root (s.entries + 1) fs := by
  induction h generalizing s with
  | nil => rfl
  | @cons e f es fs hcheck _ ih =>
    obtain ⟨hresolves, hcomparison⟩ := Compiler.check_eq_ok_iff.1 hcheck
    have hjoins : (PredicateBuilder.reach c.root f.path s).1.joins =
        pathJoins c.root (s.entries + 1) f.path.hops := joins_test_reach c.root f s
    unfold started
    simp only [Registry.resolve_eq_ok_iff.2 hresolves, hcomparison, List.flatMap_cons]
    rw [reach_snd, ih, hjoins, joinsFrom_cons]

theorem spans_of_compileAll_eq_ok {s : Builder} {p : Predicate}
    (h : (c.compileAll es s).1 = .ok (some p)) :
    p.Spans s.entries (c.compileAll es s).2.entries ∧
      p.joins = (started c es s).flatMap (·.joins) ∧
      JoinsInTurn c es (s.entries + 1) p.joins := by
  obtain ⟨fs, hcheck, hp⟩ := Compiler.compileAll_eq_ok_iff.1 h
  have hpointwise := mapM_eq_ok_iff.1 hcheck
  obtain ⟨hspans, hjoins⟩ := spans_of_conjoin_build_eq_some hp.symm
  have hafter : (c.compileAll es s).2 = ⟨s.entries + fs.length⟩ := by
    rw [Compiler.compileAll, Compiler.compileOnto_of_check_eq_ok hcheck, afterBuild_eq]
  rw [hafter, joins_started_of_check hpointwise, hjoins]
  exact ⟨hspans, rfl, joinsInTurn_of_check hpointwise _⟩

/-- The forced filters and those of a request are conjoined in one row of entries. -/
theorem joinsInTurn_of_predicate_eq_ok {forced : List FilterExpression} {params : Params}
    {s : Builder} {p : Predicate} (h : (Planner.predicate c forced params s).1 = .ok (some p)) :
    JoinsInTurn c (forced ++ c.naming.decompose params) (s.entries + 1) p.joins := by
  rw [Planner.predicate_fst] at h
  obtain ⟨fs, hforced, h⟩ := bind_eq_ok_iff.1 h
  obtain ⟨gs, hown, h⟩ := bind_eq_ok_iff.1 h
  have hjoins : p.joins = joinsFrom c.root (s.entries + 1) (fs ++ gs) := by
    calc
      p.joins = joinsOf (Planner.combine (σ := Builder) _ _) :=
        congrArg joinsOf (Except.ok.inj h).symm
      _ = joinsFrom c.root (s.entries + 1) fs ++
          joinsFrom c.root (s.entries + fs.length + 1) gs := by
        rw [afterBuild_eq, joinsOf_combine (fun _ hp => (spans_of_conjoin_build_eq_some hp).1)
          (fun _ hq => (spans_of_conjoin_build_eq_some hq).1), joinsOf_conjoin_build,
          joinsOf_conjoin_build]
      _ = joinsFrom c.root (s.entries + 1) (fs ++ gs) := by
        rw [joinsFrom_append, Nat.add_right_comm]
  rw [hjoins]
  exact joinsInTurn_of_check (List.rel_append (mapM_eq_ok_iff.1 hforced) (mapM_eq_ok_iff.1 hown)) _

/-! ### Compilations in turn -/

/-- A compilation of filters by a builder. -/
structure Compilation where
  compiler : Compiler
  filters : List FilterExpression

namespace Compilation

/-- What comes of the compilation in a state of the builder. -/
def result (k : Compilation) (s : Builder) : Except FilterError (Option Predicate) :=
  (k.compiler.compileAll k.filters s).1

/-- The state that it leaves. -/
def after (k : Compilation) (s : Builder) : Builder := (k.compiler.compileAll k.filters s).2

/-- The paths that it starts. -/
def paths (k : Compilation) (s : Builder) : List Path := started k.compiler k.filters s

/-- Compilations one after the other, each with the state that it finds. -/
def inTurn : List Compilation → Builder → List (Compilation × Builder)
  | [], _ => []
  | k :: ks, s => (k, s) :: inTurn ks (k.after s)

theorem entries_after (k : Compilation) (s : Builder) :
    (k.after s).entries = s.entries + (k.paths s).length :=
  (started_spec k.compiler none k.filters s).1

variable {ks : List Compilation} {s : Builder}

/-- The paths that compilations start, one after the other. -/
def pathsInTurn (ks : List Compilation) (s : Builder) : List Path :=
  (inTurn ks s).flatMap fun x => x.1.paths x.2

theorem pathsInTurn_cons (k : Compilation) (ks : List Compilation) (s : Builder) :
    pathsInTurn (k :: ks) s = k.paths s ++ pathsInTurn ks (k.after s) := rfl

/-- The paths of all compilations are numbered through. -/
theorem entries_pathsInTurn (ks : List Compilation) (s : Builder) :
    (pathsInTurn ks s).map (·.entry) =
        List.range' (s.entries + 1) (pathsInTurn ks s).length ∧
      ∀ path ∈ pathsInTurn ks s, path.Numbered := by
  induction ks generalizing s with
  | nil => exact ⟨rfl, fun _ h => absurd h List.not_mem_nil⟩
  | cons k ks ih =>
    have hfirst : (k.paths s).map (·.entry) = List.range' (s.entries + 1) (k.paths s).length :=
      (started_spec k.compiler none k.filters s).2.1
    obtain ⟨hrest, hlater⟩ := ih (k.after s)
    rw [entries_after, Nat.add_right_comm] at hrest
    rw [pathsInTurn_cons]
    refine ⟨?_, List.forall_mem_append.2
      ⟨(started_spec k.compiler none k.filters s).2.2, hlater⟩⟩
    rw [List.map_append, List.length_append, hfirst, hrest, List.range'_append_1]

theorem le_entries_of_mem_inTurn {x : Compilation × Builder} (h : x ∈ inTurn ks s) :
    s.entries ≤ x.2.entries := by
  induction ks generalizing s with
  | nil => cases h
  | cons k ks ih =>
    rcases List.mem_cons.1 h with rfl | h
    · exact Nat.le_refl _
    · have hlater := ih h
      rw [entries_after] at hlater
      omega

end Compilation

open Compilation

/-- **Filter entries never share or steal each other's joins.** However many compilations one
builder runs in turn, and wherever some of them fail: the paths started for different filters have
no alias in common; predicates of different compilations are conjoined without the loss of a join;
and the joins of a compiled predicate are those that its filters have on their own, filter after
filter and each under the next number. The filters that a scope forces and those of the request are
one such row. -/
theorem entries_keep_their_joins (ks : List Compilation) (s : Builder) :
    (pathsInTurn ks s).Pairwise
        (fun p q => (aliases p.joins).Disjoint (aliases q.joins)) ∧
      (inTurn ks s).Pairwise (fun x y => ∀ p q, x.1.result x.2 = .ok (some p) →
        y.1.result y.2 = .ok (some q) →
          (p.conj q).joins = p.joins ++ q.joins ∧ (q.conj p).joins = q.joins ++ p.joins) ∧
      (∀ x ∈ inTurn ks s, ∀ p, x.1.result x.2 = .ok (some p) →
        p.joins = (x.1.paths x.2).flatMap (·.joins) ∧
          JoinsInTurn x.1.compiler x.1.filters (x.2.entries + 1) p.joins) ∧
      ∀ (c : Compiler) (forced : List FilterExpression) (params : Params) (t : Builder)
        (p : Predicate), (Planner.predicate c forced params t).1 = .ok (some p) →
          JoinsInTurn c (forced ++ c.naming.decompose params) (t.entries + 1) p.joins := by
  refine ⟨?_, ?_, fun x _ p hp => (spans_of_compileAll_eq_ok hp).2,
    fun c forced params t p => joinsInTurn_of_predicate_eq_ok⟩
  · obtain ⟨hentries, hpaths⟩ := entries_pathsInTurn ks s
    have hnumbers : ((pathsInTurn ks s).map (·.entry)).Nodup := by
      rw [hentries]
      exact List.nodup_range'
    refine (List.pairwise_map.1 hnumbers).imp_of_mem fun hp hq hne name hleft hright => ?_
    -- the alias carries the number of both paths
    exact hne (((hpaths _ hp).numbered name hleft).unique ((hpaths _ hq).numbered name hright))
  · induction ks generalizing s with
    | nil => exact .nil
    | cons k ks ih =>
      refine .cons (fun y hy p q hp hq => ?_) (ih _)
      have hp := (spans_of_compileAll_eq_ok hp).1
      have hq := (spans_of_compileAll_eq_ok hq).1
      have hlater := le_entries_of_mem_inTurn hy
      exact ⟨hp.joins_conj hq (.inl hlater), hq.joins_conj hp (.inr hlater)⟩

/-! ### A compilation that fails between two others -/

/-- An order of 25 and the order with the number 11; then filters of which the first is refused when
its path has been started; then the order with the number 11 once more. -/
def orderRounds : List Compilation :=
  [⟨shopCompiler, twoOrders⟩, ⟨shopCompiler, Describer.illTyped⟩,
    ⟨shopCompiler, [.ofField "orders.id" .eq "11"]⟩]

/-- The last filter alone, after three paths have been started. -/
def fourthOrder : Predicate where
  condition := .test ⟨"j4_orders", "id"⟩ (.equal (.int 11))
  joins := [⟨"orders", "j4_orders", "users", "id", "user_id"⟩]

/-- The filters that were refused have used up a number, and what is compiled before them and after
them is conjoined with all its joins. -/
theorem entries_keep_their_joins_of_orders :
    (pathsInTurn orderRounds {}).map (fun path => (path.entry, aliases path.joins)) =
        [(1, ["j1_orders"]), (2, ["j2_orders"]), (3, ["j3_orders"]), (4, ["j4_orders"])] ∧
      (pathsInTurn orderRounds {}).Pairwise
        (fun p q => (aliases p.joins).Disjoint (aliases q.joins)) ∧
      (twoOrdersPredicate.conj fourthOrder).joins =
        twoOrdersPredicate.joins ++ fourthOrder.joins ∧
      JoinsInTurn shopCompiler twoOrders 1 twoOrdersPredicate.joins := by
  obtain ⟨hdisjoint, hconj, hjoins, -⟩ := entries_keep_their_joins orderRounds {}
  have hturns : (inTurn orderRounds {}).map Prod.snd = [⟨0⟩, ⟨2⟩, ⟨3⟩] := by decide +kernel
  have hfirst : (shopCompiler.compileAll twoOrders (⟨0⟩ : Builder)).1 =
      .ok (some twoOrdersPredicate) := by decide +kernel
  have hlast : (shopCompiler.compileAll [.ofField "orders.id" .eq "11"] (⟨3⟩ : Builder)).1 =
      .ok (some fourthOrder) := by decide +kernel
  have hrow : inTurn orderRounds {} = [(⟨shopCompiler, twoOrders⟩, ⟨0⟩),
      (⟨shopCompiler, Describer.illTyped⟩, ⟨2⟩),
      (⟨shopCompiler, [.ofField "orders.id" .eq "11"]⟩, ⟨3⟩)] := by
    simpa [orderRounds, inTurn] using hturns
  rw [hrow] at hconj hjoins
  refine ⟨by decide +kernel, hdisjoint, ?_, ?_⟩
  · have hlater := List.rel_of_pairwise_cons hconj
      (List.mem_cons_of_mem _ (List.mem_singleton_self _))
    exact (hlater _ _ hfirst hlast).1
  · exact (hjoins _ (List.mem_cons_self ..) _ hfirst).2

end Sql

end QuerySieve
