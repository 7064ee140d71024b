import QuerySieve.Proofs.Sql.Entry

/-!
# QuerySieve.Proofs.Sql.Aliases

**No statement speaks of an alias that it has not introduced**, in whatever order a builder is
called and however its aliases clash.

Calls on a builder are steps on what it has made so far (`Made.call`), and `PredicateBuilder.Keeps`
says what each step has to preserve so that it holds of everything that is ever made. For the
builder of a database the invariant of a path is `Path.Sound`: its joins have different aliases,
each is on the root or on an earlier one, and the path has got to one of them. A join that is
dropped because its alias is there breaks nothing, as the alias is what later joins rely on, not
what it stands for; so no condition on the names of relations is needed here.
-/

namespace QuerySieve

/-! ### Calls on a builder -/

namespace PredicateBuilder

/-- A call on a builder. It names paths and predicates by their place in the order in which they
were made, so that each can be used any number of times. -/
inductive Call
  | root
  | join (path : Nat) (hop : Hop)
  | get (path : Nat) (field : Field)
  | test (path : Nat) (comparison : Comparison Value)
  | and (left right : Nat)
  deriving DecidableEq

/-- A builder with the paths and predicates that it has made. -/
structure Made (σ Path Predicate : Type) where
  state : σ
  paths : List Path := []
  predicates : List Predicate := []

variable {σ Path Predicate : Type}

namespace Made

/-- A path is made, which may change the state. -/
def addPath (made : Made σ Path Predicate) (next : Path × σ) : Made σ Path Predicate :=
  { made with state := next.2, paths := made.paths ++ [next.1] }

/-- A predicate is made. -/
def addPredicate (made : Made σ Path Predicate) (predicate : Predicate) : Made σ Path Predicate :=
  { made with predicates := made.predicates ++ [predicate] }

/-- Everything that has been made has its property. -/
def All (P : Path → Prop) (Q : Predicate → Prop) (made : Made σ Path Predicate) : Prop :=
  (∀ path ∈ made.paths, P path) ∧ ∀ predicate ∈ made.predicates, Q predicate

variable {P : Path → Prop} {Q : Predicate → Prop} {made : Made σ Path Predicate}

theorem All.addPath (h : made.All P Q) {next : Path × σ} (hnext : P next.1) :
    (made.addPath next).All P Q := by
  refine ⟨fun path hpath => ?_, h.2⟩
  rcases List.mem_append.1 hpath with hpath | hpath
  · exact h.1 path hpath
  · exact List.mem_singleton.1 hpath ▸ hnext

theorem All.addPredicate (h : made.All P Q) {predicate : Predicate} (hnew : Q predicate) :
    (made.addPredicate predicate).All P Q := by
  refine ⟨h.1, fun other hother => ?_⟩
  rcases List.mem_append.1 hother with hother | hother
  · exact h.2 other hother
  · exact List.mem_singleton.1 hother ▸ hnew

/-- A step for what is found at a place, if anything is. -/
theorem All.elim {α : Type} (h : made.All P Q) {xs : List α} {i : Nat}
    {step : α → Made σ Path Predicate} (hstep : ∀ x ∈ xs, (step x).All P Q) :
    (xs[i]?.elim made step).All P Q := by
  cases hi : xs[i]? with
  | none => exact h
  | some x => exact hstep x (List.mem_of_getElem? hi)

end Made

variable [PredicateBuilder σ Path Predicate]

namespace Made

/-- The step of one call. A call on what has not been made does nothing. -/
def call (root : Schema) (made : Made σ Path Predicate) : Call → Made σ Path Predicate
  | .root => made.addPath (PredicateBuilder.root root made.state)
  | .join i hop =>
    made.paths[i]?.elim made fun path => made.addPath (PredicateBuilder.join path hop made.state)
  | .get i field =>
    made.paths[i]?.elim made fun path =>
      made.addPath (PredicateBuilder.get σ path field, made.state)
  | .test i comparison =>
    made.paths[i]?.elim made fun path =>
      made.addPredicate (PredicateBuilder.test σ path comparison)
  | .and i j =>
    made.predicates[i]?.elim made fun left =>
      made.predicates[j]?.elim made fun right =>
        made.addPredicate (PredicateBuilder.and σ left right)

/-- The calls one after the other. -/
def run (root : Schema) (made : Made σ Path Predicate) (calls : List Call) :
    Made σ Path Predicate :=
  calls.foldl (call root) made

end Made

/-- Every operation of the builder, for one root, keeps to a property of paths and one of
predicates. -/
structure Keeps (σ : Type) {Path Predicate : Type} [PredicateBuilder σ Path Predicate]
    (root : Schema) (P : Path → Prop) (Q : Predicate → Prop) : Prop where
  root : ∀ s : σ, P (PredicateBuilder.root root s).1
  join : ∀ {path} hop (s : σ), P path → P (PredicateBuilder.join path hop s).1
  get : ∀ {path} field, P path → P (PredicateBuilder.get σ path field)
  test : ∀ {path} comparison, P path → Q (PredicateBuilder.test σ path comparison)
  and : ∀ {left right}, Q left → Q right → Q (PredicateBuilder.and σ left right)

variable {root : Schema} {P : Path → Prop} {Q : Predicate → Prop} {made : Made σ Path Predicate}

/-- **Step.** -/
theorem Keeps.call (h : Keeps σ root P Q) (hmade : made.All P Q) (c : Call) :
    (made.call root c).All P Q := by
  cases c with
  | root => exact hmade.addPath (h.root _)
  | join i hop =>
    exact hmade.elim fun path hpath => hmade.addPath (h.join hop _ (hmade.1 path hpath))
  | get i field =>
    exact hmade.elim fun path hpath => hmade.addPath (h.get field (hmade.1 path hpath))
  | test i comparison =>
    exact hmade.elim fun path hpath =>
      hmade.addPredicate (h.test comparison (hmade.1 path hpath))
  | and i j =>
    exact hmade.elim fun left hleft => hmade.elim fun right hright =>
      hmade.addPredicate (h.and (hmade.2 left hleft) (hmade.2 right hright))

/-- **Run.** -/
theorem Keeps.run (h : Keeps σ root P Q) (hmade : made.All P Q) (calls : List Call) :
    (made.run root calls).All P Q := by
  induction calls generalizing made with
  | nil => exact hmade
  | cons c calls ih => exact ih (h.call hmade c)

end PredicateBuilder

namespace Sql

/-! ### Joins that are pushed -/

variable {joins left right : List JoinSpec} {j : JoinSpec} {known : List String} {name : String}

theorem mem_aliases_pushJoin :
    name ∈ aliases (pushJoin joins j) ↔ name ∈ aliases joins ∨ name = j.tableAlias := by
  by_cases hj : j.tableAlias ∈ aliases joins
  · rw [pushJoin_of_mem hj]
    constructor
    · exact .inl
    · rintro (hname | rfl)
      · exact hname
      · exact hj
  · simp [pushJoin_of_not_mem hj]

theorem mem_aliases_foldl_pushJoin :
    name ∈ aliases (right.foldl pushJoin left) ↔ name ∈ aliases left ∨ name ∈ aliases right := by
  induction right generalizing left with
  | nil => simp
  | cons j js ih => rw [List.foldl_cons, ih, mem_aliases_pushJoin, or_assoc, aliases_cons,
      List.mem_cons]

theorem nodup_pushJoin (h : (aliases joins).Nodup) : (aliases (pushJoin joins j)).Nodup := by
  by_cases hj : j.tableAlias ∈ aliases joins
  · rwa [pushJoin_of_mem hj]
  · rw [pushJoin_of_not_mem hj, aliases_append]
    refine List.nodup_append.2 ⟨h, List.nodup_singleton _, fun name hname other hother heq => ?_⟩
    rw [heq, List.mem_singleton.1 hother] at hname
    exact hj hname

theorem nodup_foldl_pushJoin (h : (aliases left).Nodup) :
    (aliases (right.foldl pushJoin left)).Nodup := by
  induction right generalizing left with
  | nil => exact h
  | cons j js ih => exact ih (nodup_pushJoin h)

theorem scoped_pushJoin (h : Scoped known joins) (hj : j.leftAlias ∈ aliases joins ++ known) :
    Scoped known (pushJoin joins j) := by
  unfold pushJoin
  split
  · exact h
  · exact h.append ⟨hj, trivial⟩

/-- Joins that go on from others can be pushed onto them: what a dropped join would have introduced
is there already. -/
theorem scoped_foldl_pushJoin (hleft : Scoped known left)
    (hright : Scoped (aliases left ++ known) right) :
    Scoped known (right.foldl pushJoin left) := by
  induction right generalizing left with
  | nil => exact hleft
  | cons j js ih =>
    refine ih (scoped_pushJoin hleft hright.1) (hright.2.mono ?_)
    intro name hname
    simp only [List.mem_cons, List.mem_append, mem_aliases_pushJoin] at hname ⊢
    tauto

/-- What a join is on is known from the start or introduced before it. -/
theorem Scoped.leftAlias_mem {before after : List JoinSpec}
    (h : Scoped known (before ++ j :: after)) :
    j.leftAlias ∈ known ∨ j.leftAlias ∈ aliases before := by
  induction before generalizing known with
  | nil => exact .inl h.1
  | cons k before ih =>
    rcases ih h.2 with hknown | hbefore
    · rcases List.mem_cons.1 hknown with heq | hknown
      · exact .inr (List.mem_cons.2 (.inl heq))
      · exact .inl hknown
    · exact .inr (List.mem_cons_of_mem _ hbefore)

/-! ### What a builder makes -/

/-- The path is at the root or at one of its joins, and these are in order. -/
structure Path.Sound (root : String) (path : Path) : Prop where
  joins : Scoped [root] path.joins
  nodup : (aliases path.joins).Nodup
  reached : path.tableAlias ∈ aliases path.joins ++ [root]

/-- The predicate keeps to its own names, which are all different. -/
structure Predicate.Sound (root : String) (p : Predicate) : Prop where
  scope : p.WellScoped root
  nodup : (aliases p.joins).Nodup

variable {root : String}

theorem Path.Sound.follow {path : Path} (h : path.Sound root) (hop : Hop) :
    (path.follow hop).Sound root where
  joins := scoped_foldl_pushJoin h.joins (scoped_hopJoins _ hop h.reached)
  nodup := nodup_foldl_pushJoin h.nodup
  reached := List.mem_append_left _
    (mem_aliases_foldl_pushJoin.2 (.inr (target_mem_aliases_hopJoins ..)))

theorem Predicate.Sound.conj {p q : Predicate} (hp : p.Sound root) (hq : q.Sound root) :
    (p.conj q).Sound root where
  scope :=
    { joins := scoped_foldl_pushJoin hp.scope.joins (hq.scope.joins.mono (by simp))
      condition := by
        intro leaf hleaf
        have hnames : ∀ name, name ∈ aliases p.joins ++ [root] ∨ name ∈ aliases q.joins ++ [root] →
            name ∈ aliases (p.conj q).joins ++ [root] := by
          intro name hname
          simp only [Predicate.conj, List.mem_append, mem_aliases_foldl_pushJoin] at hname ⊢
          tauto
        rcases List.mem_append.1 hleaf with hleaf | hleaf
        · exact hnames _ (.inl (hp.scope.condition leaf hleaf))
        · exact hnames _ (.inr (hq.scope.condition leaf hleaf)) }
  nodup := nodup_foldl_pushJoin hp.nodup

theorem keeps_sound (root : Schema) :
    PredicateBuilder.Keeps Builder root (Path.Sound (rootAlias root))
      (Predicate.Sound (rootAlias root)) where
  root _ := ⟨trivial, List.nodup_nil, List.mem_singleton_self _⟩
  join hop _ h := h.follow hop
  get _ h := ⟨h.joins, h.nodup, h.reached⟩
  test _ h :=
    { scope :=
        { joins := h.joins
          condition := fun leaf hleaf => by
            rw [List.mem_singleton.1 hleaf]
            exact h.reached }
      nodup := h.nodup }
  and hp hq := hp.conj hq

/-- **Only aliases that were introduced are spoken of.** Whatever a builder is called for, from
whatever number of entries it starts: in every predicate that it has made for a root the aliases of
the joins differ, each join is on the root or on the alias of an earlier one, and every column of
the condition is of the root or of one of the aliases. -/
theorem aliases_are_introduced (root : Schema) (entries : Nat)
    (calls : List PredicateBuilder.Call) (p : Predicate)
    (hp : p ∈ ((⟨⟨entries⟩, [], []⟩ : PredicateBuilder.Made Builder Path Predicate).run root
      calls).predicates) :
    (aliases p.joins).Nodup ∧
      (∀ before j after, p.joins = before ++ j :: after →
        j.leftAlias = rootAlias root ∨ j.leftAlias ∈ aliases before) ∧
      ∀ leaf ∈ p.condition.leaves,
        leaf.1.qualifier = rootAlias root ∨ leaf.1.qualifier ∈ aliases p.joins := by
  have hnone : (⟨⟨entries⟩, [], []⟩ : PredicateBuilder.Made Builder Path Predicate).All
      (Path.Sound (rootAlias root)) (Predicate.Sound (rootAlias root)) :=
    ⟨fun _ h => absurd h List.not_mem_nil, fun _ h => absurd h List.not_mem_nil⟩
  have hall := (keeps_sound root).run hnone calls
  obtain ⟨hscope, hnodup⟩ := hall.2 p hp
  refine ⟨hnodup, fun before j after hsplit => ?_, fun leaf hleaf => ?_⟩
  · have hjoins := hscope.joins
    rw [hsplit] at hjoins
    exact hjoins.leftAlias_mem.imp_left List.mem_singleton.1
  · rcases List.mem_append.1 (hscope.condition leaf hleaf) with hjoined | hroot
    · exact .inr hjoined
    · exact .inl (List.mem_singleton.1 hroot)

/-! ### An alias that clashes -/

/-- Accounts. -/
def accounts : Schema := Schema.new "account" "accounts"

/-- The groups of an account, through a link table. -/
def groupsHop : Hop :=
  ⟨"groups", ⟨"group", .toMany, "id", "id", some ⟨"memberships", "account_id", "group_id"⟩⟩,
    Schema.new "group" "groups"⟩

/-- A relation of groups that is called like what marks the alias of a link table. -/
def viaHop : Hop :=
  ⟨"via", ⟨"channel", .toOne, "via_id", "id", none⟩, Schema.new "channel" "channels"⟩

/-- A test of the channel of a group, twice. -/
def channelCalls : List PredicateBuilder.Call :=
  [.root, .join 0 groupsHop, .join 1 viaHop, .get 2 ⟨"name", .scalar .string none⟩,
    .test 3 (.equal (.text "mail")), .and 0 0]

/-- What the test becomes: its column is sought in the link table, whose alias was there before. -/
def channelTest : Predicate :=
  ⟨.test ⟨"j1_groups__via", "name"⟩ (.equal (.text "mail")),
    [⟨"memberships", "j1_groups__via", "accounts", "id", "account_id"⟩,
      ⟨"groups", "j1_groups", "j1_groups__via", "group_id", "id"⟩]⟩

/-- The channel is not joined, but every alias of the predicate is its own. -/
theorem aliases_are_introduced_of_channel :
    channelTest ∈ ((⟨⟨0⟩, [], []⟩ : PredicateBuilder.Made Builder Path Predicate).run accounts
      channelCalls).predicates ∧
    (aliases channelTest.joins).Nodup ∧
      (∀ before j after, channelTest.joins = before ++ j :: after →
        j.leftAlias = rootAlias accounts ∨ j.leftAlias ∈ aliases before) ∧
      ∀ leaf ∈ channelTest.condition.leaves,
        leaf.1.qualifier = rootAlias accounts ∨ leaf.1.qualifier ∈ aliases channelTest.joins := by
  have hmade : channelTest ∈ ((⟨⟨0⟩, [], []⟩ : PredicateBuilder.Made Builder Path Predicate).run
      accounts channelCalls).predicates := by decide +kernel
  exact ⟨hmade, aliases_are_introduced accounts 0 channelCalls channelTest hmade⟩

end Sql

end QuerySieve
