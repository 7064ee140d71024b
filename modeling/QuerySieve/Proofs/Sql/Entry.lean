import QuerySieve.Proofs.Sql.Scope
import QuerySieve.Proofs.Text

/-!
# QuerySieve.Proofs.Sql.Entry

**The joins of one filter entry**, and why their aliases never meet.

An alias is the number of the entry followed by the relations travelled, so two aliases are equal
only for one entry and one text of relations (`joinAlias_inj`). Within an entry every hop makes that
text longer; the one thing that meets it is the alias of a link table, which ends in `via`
(`nodup_stops_iff`). Hence the condition `PlainName` on the names of relations: with it all aliases
of an entry differ (`nodup_aliases_entryJoins`), no push is ever dropped and a path carries exactly
`entryJoins` (`foldl_follow`).
-/

namespace QuerySieve.Sql

/-- A relation's name that keeps the aliases of a path apart. -/
def PlainName (name : String) : Prop := name ≠ "" ∧ name ≠ "via"

instance (name : String) : Decidable (PlainName name) :=
  inferInstanceAs (Decidable (name ≠ "" ∧ name ≠ "via"))

/-- A name of the form `j<digits>_...`, as aliases are. -/
def IsGenerated (name : String) : Prop :=
  ∃ digits rest : List Char, digits ≠ [] ∧ (∀ d ∈ digits, d.isDigit) ∧
    name.toList = 'j' :: digits ++ '_' :: rest

/-! ### Aliases as texts -/

theorem underscore_not_mem_toString (n : Nat) : '_' ∉ (toString n).toList := fun h =>
  absurd (Text.isDigit_of_mem_toString h) (by decide)

theorem toList_joinAlias (entry : Nat) (relations : String) :
    (joinAlias entry relations).toList =
      'j' :: (toString entry).toList ++ '_' :: relations.toList := by
  simp [joinAlias]

theorem joinAlias_inj {m n : Nat} {r s : String} (h : joinAlias m r = joinAlias n s) :
    m = n ∧ r = s := by
  have hlist := congrArg String.toList h
  simp only [toList_joinAlias, List.cons_append, List.cons.injEq, true_and] at hlist
  -- the number ends at the first mark, since no digit is one
  obtain ⟨hnumber, htext⟩ := Text.append_cons_inj (underscore_not_mem_toString m)
    (underscore_not_mem_toString n) hlist
  refine ⟨?_, String.toList_inj.1 htext⟩
  have hdigits : Nat.toDigits 10 m = Nat.toDigits 10 n := by
    rw [← Nat.toList_repr, ← Nat.toList_repr]
    exact hnumber
  calc
    m = Nat.ofDigitChars 10 (Nat.toDigits 10 m) 0 := Nat.ofDigitChars_ten_toDigits.symm
    _ = Nat.ofDigitChars 10 (Nat.toDigits 10 n) 0 := by rw [hdigits]
    _ = n := Nat.ofDigitChars_ten_toDigits

theorem isGenerated_joinAlias (entry : Nat) (relations : String) :
    IsGenerated (joinAlias entry relations) := by
  refine ⟨(toString entry).toList, relations.toList, ?_, fun _ => Text.isDigit_of_mem_toString,
    toList_joinAlias entry relations⟩
  have hne : Nat.toDigits 10 entry ≠ [] := Nat.toDigits_ne_nil
  exact Nat.toList_repr ▸ hne

/-- The alias of a link table is that of a relation called `via`. -/
theorem linkAlias_joinAlias (entry : Nat) (relations : String) :
    linkAlias (joinAlias entry relations) =
      joinAlias entry (relations ++ aliasMark ++ "via") := by
  simp [linkAlias, joinAlias, String.append_assoc]

/-! ### The joins of an entry -/

/-- The joins from an alias along relations, after `relations` have been travelled. -/
def entryJoins (entry : Nat) : String → String → List Hop → List JoinSpec
  | _, _, [] => []
  | source, relations, hop :: hops =>
    let next := extendRelations relations hop.name
    hopJoins source (joinAlias entry next) hop ++ entryJoins entry (joinAlias entry next) next hops

/-- The alias that relations lead to. -/
def endAlias (entry : Nat) : String → String → List Hop → String
  | source, _, [] => source
  | _, relations, hop :: hops =>
    let next := extendRelations relations hop.name
    endAlias entry (joinAlias entry next) next hops

/-- The texts of relations in the aliases of an entry. -/
def stops : String → List Hop → List String
  | _, [] => []
  | relations, hop :: hops =>
    let next := extendRelations relations hop.name
    (if hop.relation.via.isSome then [next ++ aliasMark ++ "via", next] else [next])
      ++ stops next hops

theorem aliases_hopJoins (entry : Nat) (source next : String) (hop : Hop) :
    aliases (hopJoins source (joinAlias entry next) hop) =
      (if hop.relation.via.isSome then [next ++ aliasMark ++ "via", next] else [next]).map
        (joinAlias entry) := by
  unfold hopJoins
  cases hop.relation.via with
  | none => rfl
  | some via => simp [linkAlias_joinAlias]

theorem target_mem_aliases_hopJoins (source target : String) (hop : Hop) :
    target ∈ aliases (hopJoins source target hop) := by
  unfold hopJoins
  cases hop.relation.via <;> simp

theorem aliases_entryJoins (entry : Nat) (source relations : String) (hops : List Hop) :
    aliases (entryJoins entry source relations hops) =
      (stops relations hops).map (joinAlias entry) := by
  induction hops generalizing source relations with
  | nil => rfl
  | cons hop hops ih =>
    rw [entryJoins, stops, aliases_append, List.map_append, aliases_hopJoins, ih]

theorem scoped_hopJoins (target : String) (hop : Hop) {source : String} {known : List String}
    (h : source ∈ known) : Scoped known (hopJoins source target hop) := by
  unfold hopJoins
  cases hop.relation.via with
  | none => exact ⟨h, trivial⟩
  | some via => exact ⟨h, List.mem_cons_self .., trivial⟩

/-- Every join of an entry is on what its path has reached. -/
theorem scoped_entryJoins (entry : Nat) (relations : String) (hops : List Hop) {source : String}
    {known : List String} (h : source ∈ known) :
    Scoped known (entryJoins entry source relations hops) := by
  induction hops generalizing source relations known with
  | nil => trivial
  | cons hop hops ih =>
    exact (scoped_hopJoins _ hop h).append
      (ih _ (List.mem_append_left _ (target_mem_aliases_hopJoins ..)))

/-- A path ends at its source or at one of its joins. -/
theorem endAlias_mem (entry : Nat) (source relations : String) (hops : List Hop) :
    endAlias entry source relations hops ∈
      aliases (entryJoins entry source relations hops) ++ [source] := by
  induction hops generalizing source relations with
  | nil => exact List.mem_singleton_self source
  | cons hop hops ih =>
    have htarget := target_mem_aliases_hopJoins source
      (joinAlias entry (extendRelations relations hop.name)) hop
    rw [endAlias, entryJoins, aliases_append]
    rcases List.mem_append.1 (ih (joinAlias entry (extendRelations relations hop.name))
      (extendRelations relations hop.name)) with hrest | hhere
    · simp [hrest]
    · rw [List.mem_singleton.1 hhere]
      simp [htarget]

/-! ### When all aliases differ -/

theorem extendRelations_eq_empty_iff {relations name : String} :
    extendRelations relations name = "" ↔ relations = "" ∧ name = "" := by
  unfold extendRelations
  split
  · simp [*]
  · have hmark : aliasMark ≠ "" := by decide
    simp [*]

theorem extendRelations_of_ne {relations : String} (h : relations ≠ "") (name : String) :
    extendRelations relations name = relations ++ aliasMark ++ name := if_neg h

theorem mem_stops_cons {relations text : String} {hop : Hop} {hops : List Hop} :
    text ∈ stops relations (hop :: hops) ↔ text = extendRelations relations hop.name ∨
      (hop.relation.via.isSome ∧
        text = extendRelations relations hop.name ++ aliasMark ++ "via") ∨
      text ∈ stops (extendRelations relations hop.name) hops := by
  cases h : hop.relation.via with
  | none => simp [stops, h]
  | some via =>
    simp only [stops, h, Option.isSome_some, if_true, List.mem_append, List.mem_cons,
      List.not_mem_nil, or_false, true_and]
    tauto

/-- A text of a path is that of the first hop, perhaps with more after a mark. -/
theorem exists_rest_of_mem_stops {relations text : String} {hop : Hop} {hops : List Hop}
    (hne : extendRelations relations hop.name ≠ "") (h : text ∈ stops relations (hop :: hops)) :
    ∃ rest, text = extendRelations relations hop.name ++ rest ∧
      (rest = "" ∨ ∃ more, rest = aliasMark ++ more) := by
  induction hops generalizing relations hop with
  | nil =>
    rcases mem_stops_cons.1 h with rfl | ⟨-, rfl⟩ | hrest
    · exact ⟨"", by simp, .inl rfl⟩
    · exact ⟨aliasMark ++ "via", by rw [String.append_assoc], .inr ⟨"via", rfl⟩⟩
    · cases hrest
  | cons next hops ih =>
    rcases mem_stops_cons.1 h with rfl | ⟨-, rfl⟩ | hrest
    · exact ⟨"", by simp, .inl rfl⟩
    · exact ⟨aliasMark ++ "via", by rw [String.append_assoc], .inr ⟨"via", rfl⟩⟩
    · obtain ⟨rest, rfl, -⟩ := ih (fun h => hne (extendRelations_eq_empty_iff.1 h).1) hrest
      refine ⟨aliasMark ++ (next.name ++ rest), ?_, .inr ⟨_, rfl⟩⟩
      rw [extendRelations_of_ne hne, String.append_assoc, String.append_assoc]

/-- What comes later goes beyond the relations that have been travelled. -/
theorem not_mem_stops_self {relations : String} (hne : relations ≠ "") (hops : List Hop) :
    relations ∉ stops relations hops := by
  cases hops with
  | nil => exact List.not_mem_nil
  | cons hop hops =>
    intro h
    obtain ⟨rest, htext, -⟩ :=
      exists_rest_of_mem_stops (fun h => hne (extendRelations_eq_empty_iff.1 h).1) h
    have hlength := congrArg String.length htext
    rw [extendRelations_of_ne hne] at hlength
    have hmark : aliasMark.length = 2 := rfl
    simp only [String.length_append] at hlength
    omega

/-- What comes later meets the alias of the link table only as a relation called `via`. -/
theorem via_mem_stops_iff {relations : String} (hne : relations ≠ "") {hop : Hop}
    {hops : List Hop} :
    relations ++ aliasMark ++ "via" ∈ stops relations (hop :: hops) ↔ hop.name = "via" := by
  constructor
  · intro h
    obtain ⟨rest, htext, hrest⟩ :=
      exists_rest_of_mem_stops (fun h => hne (extendRelations_eq_empty_iff.1 h).1) h
    have hvia : "via".toList = hop.name.toList ++ rest.toList := by
      rw [extendRelations_of_ne hne] at htext
      simpa [← String.toList_inj] using htext
    rcases hrest with rfl | ⟨more, rfl⟩
    · exact String.toList_inj.1 (by simpa using hvia.symm)
    · have hmark : '_' ∈ "via".toList := by
        rw [hvia]
        simp [aliasMark]
      exact absurd hmark (by decide)
  · intro h
    exact mem_stops_cons.2 (.inl (by rw [extendRelations_of_ne hne, h]))

/-- **Step.** The texts of a path differ if those of its rest do and none of them is one of the
first hop. -/
theorem nodup_stops_cons_iff {relations : String} {hop : Hop} {hops : List Hop} :
    (stops relations (hop :: hops)).Nodup ↔
      extendRelations relations hop.name ∉ stops (extendRelations relations hop.name) hops ∧
      (hop.relation.via.isSome → extendRelations relations hop.name ++ aliasMark ++ "via" ∉
        stops (extendRelations relations hop.name) hops) ∧
      (stops (extendRelations relations hop.name) hops).Nodup := by
  have hlonger : ∀ text : String, text ++ aliasMark ++ "via" ≠ text := fun text h =>
    absurd (congrArg String.toList h) (by simp [aliasMark])
  cases h : hop.relation.via with
  | none => simp [stops, h]
  | some via =>
    simp only [stops, h, Option.isSome_some, if_true, List.cons_append, List.nil_append,
      List.nodup_cons, List.mem_cons, not_or, forall_const]
    have := hlonger (extendRelations relations hop.name)
    tauto

/-- A relation is not taken for the link table of the one before it. -/
def KeepsApart (hop next : Hop) : Prop := hop.relation.via.isSome → next.name ≠ "via"

/-- The texts of a path differ exactly if no relation is taken for a link table. -/
theorem nodup_stops_iff {relations : String} {hop : Hop} {hops : List Hop}
    (hne : extendRelations relations hop.name ≠ "") :
    (stops relations (hop :: hops)).Nodup ↔ (hop :: hops).IsChain KeepsApart := by
  induction hops generalizing relations hop with
  | nil =>
    rw [nodup_stops_cons_iff]
    simp [stops]
  | cons next hops ih =>
    have hnext : extendRelations (extendRelations relations hop.name) next.name ≠ "" :=
      fun h => hne (extendRelations_eq_empty_iff.1 h).1
    rw [nodup_stops_cons_iff, via_mem_stops_iff hne, ih hnext, List.isChain_cons_cons]
    simp only [not_mem_stops_self hne, not_false_eq_true, true_and, KeepsApart]

theorem nodup_stops {hops : List Hop} (hnames : ∀ hop ∈ hops, PlainName hop.name)
    (relations : String) : (stops relations hops).Nodup := by
  cases hops with
  | nil => exact List.nodup_nil
  | cons hop hops =>
    have hname := hnames hop (List.mem_cons_self ..)
    refine (nodup_stops_iff fun h => hname.1 (extendRelations_eq_empty_iff.1 h).2).2 ?_
    exact List.Pairwise.isChain
      (List.pairwise_of_forall_mem_list fun _ _ next hnext _ => (hnames next hnext).2)

theorem nodup_aliases_entryJoins {hops : List Hop} (hnames : ∀ hop ∈ hops, PlainName hop.name)
    (entry : Nat) (source relations : String) :
    (aliases (entryJoins entry source relations hops)).Nodup := by
  rw [aliases_entryJoins]
  exact (nodup_stops hnames relations).map fun _ _ h => (joinAlias_inj h).2

/-- The aliases of an entry carry its number. -/
theorem exists_eq_joinAlias_of_mem {entry : Nat} {source relations name : String} {hops : List Hop}
    (h : name ∈ aliases (entryJoins entry source relations hops)) :
    ∃ text, name = joinAlias entry text := by
  rw [aliases_entryJoins] at h
  obtain ⟨text, -, rfl⟩ := List.mem_map.1 h
  exact ⟨text, rfl⟩

/-! ### Paths -/

/-- Along relations a path is pushed its `entryJoins`, one after the other. -/
theorem foldl_follow_eq (path : Path) (hops : List Hop) :
    (hops.foldl Path.follow path).joins =
        (entryJoins path.entry path.tableAlias path.relations hops).foldl pushJoin path.joins ∧
      (hops.foldl Path.follow path).tableAlias =
        endAlias path.entry path.tableAlias path.relations hops := by
  induction hops generalizing path with
  | nil => exact ⟨rfl, rfl⟩
  | cons hop hops ih =>
    rw [entryJoins, List.foldl_append]
    exact ih (path.follow hop)

/-- Along relations whose aliases are new, a path adds exactly its `entryJoins`. -/
theorem foldl_follow {path : Path} {hops : List Hop}
    (h : (aliases (path.joins ++
      entryJoins path.entry path.tableAlias path.relations hops)).Nodup) :
    (hops.foldl Path.follow path).joins =
        path.joins ++ entryJoins path.entry path.tableAlias path.relations hops ∧
      (hops.foldl Path.follow path).tableAlias =
        endAlias path.entry path.tableAlias path.relations hops := by
  rw [← foldl_pushJoin h]
  exact foldl_follow_eq path hops

end QuerySieve.Sql
