import QuerySieve.Proofs.EagerLoad.Edge

/-!
# QuerySieve.Proofs.EagerLoad.Batch

**A batch loads as its rows do one by one.**

The batched loader fetches the children of all rows together, loads what is below them as one list
and hands them out by the texts of their keys. `loadRow` is the naive loader beside it: a question
for every row at every depth, and whatever comes back belongs to that row. Both agree because both
compute `completed`, which looks at one row and at the database:

* a batch asks for the keys of all its rows, and what is handed to a row from the common answer is
  the answer to its own key (`childrenOf_foundFor`);
* that needs a key that is compared to be a key that is asked for. A column of the database has
  scalars only. A column that a sibling has overwritten has none that could be asked for, in any row
  of the batch. `Tidy` carries this along the siblings.
-/

namespace QuerySieve

namespace Json

/-- A value of a column: null, a truth value, a text or a signed 64-bit integer. -/
def IsScalar : Json → Prop
  | null | bool _ | str _ => True
  | int n => Text.int64Min ≤ n ∧ n ≤ Text.int64Max
  | _ => False

/-- A row as databases have it: an object of scalars. -/
def IsFlat : Json → Prop
  | obj members => ∀ member ∈ members, member.2.IsScalar
  | _ => False

instance : (value : Json) → Decidable value.IsScalar
  | null | bool _ | str _ => .isTrue trivial
  | int n => inferInstanceAs (Decidable (Text.int64Min ≤ n ∧ n ≤ Text.int64Max))
  | real _ | arr _ | obj _ => .isFalse id

instance : (row : Json) → Decidable row.IsFlat
  | obj members => inferInstanceAs (Decidable (∀ member ∈ members, member.2.IsScalar))
  | null | bool _ | str _ | int _ | real _ | arr _ => .isFalse id

theorem IsFlat.exists_members {row : Json} (h : row.IsFlat) :
    ∃ members, row = obj members ∧ ∀ member ∈ members, member.2.IsScalar := by
  cases row with
  | obj members => exact ⟨members, rfl, h⟩
  | _ => cases h

theorem IsFlat.isObject {row : Json} (h : row.IsFlat) : row.isObject := by
  obtain ⟨members, rfl, -⟩ := h.exists_members
  rfl

theorem IsFlat.isScalar {row value : Json} {column : String} (h : row.IsFlat)
    (hvalue : row.get? column = some value) : value.IsScalar := by
  obtain ⟨members, rfl, hscalar⟩ := h.exists_members
  exact hscalar _ (Entries.mem_of_get?_eq_some hvalue)

theorem IsFlat.erase {row : Json} (h : row.IsFlat) (column : String) :
    (row.erase column).IsFlat := by
  obtain ⟨members, rfl, hscalar⟩ := h.exists_members
  exact fun member hmember => hscalar member (List.mem_filter.1 hmember).1

end Json

/-- The text of a key that is asked for. -/
def Sql.Param.keyText : Sql.Param → String
  | int n => toString n
  | real x => x.text
  | bool b => if b then "true" else "false"
  | text s => s

namespace EagerLoad

variable {κ : Type} {conn : Connection κ} {reg : Registry} {owner target : Schema}
variable {relation : Relation} {stock : Schema → Relation → List Json}

/-- What a database answers that has a list for each relation: the rows of the list whose owner's
key has the text of a key that is asked for. -/
def served (stock : Schema → Relation → List Json) (target : Schema) (relation : Relation)
    (keys : List Sql.Param) : List Json :=
  (stock target relation).filter fun child =>
    (rowKey? (ownerColumn relation) child).any (keys.map Sql.Param.keyText).contains

/-- The database has a list of rows for each relation and answers from these lists. -/
structure Stocked (conn : Connection κ) (stock : Schema → Relation → List Json) : Prop where
  steady : conn.Steady (served stock)
  isFlat : ∀ target relation, ∀ child ∈ stock target relation, child.IsFlat

/-! ### Rows one by one -/

/-- The loader of one row for each of the rows. -/
def oneByOne (step : Json → Session κ → Outcome κ Json) :
    List Json → Session κ → Outcome κ (List Json)
  | [], session => (.ok [], session)
  | row :: rows, session =>
    match step row session with
    | (.error failure, session) => (.error failure, session)
    | (.ok loaded, session) =>
      match oneByOne step rows session with
      | (.error failure, session) => (.error failure, session)
      | (.ok rest, session) => (.ok (loaded :: rest), session)

/-- Loads the relations of a forest for one row alone, and for each of its children alone in
turn. All that its questions find is its own. -/
def loadRow (reg : Registry) (conn : Connection κ) :
    Forest → Schema → Json → Session κ → Outcome κ Json
  | .nil, _, row, session => (.ok row, session)
  | .node name below siblings, owner, row, session =>
    match relationTo reg owner name with
    | .error cause => (.error ⟨cause, []⟩, session)
    | .ok (relation, target) =>
      match fetch conn owner name relation target [row] session with
      | (.error failure, session) => (.error failure, session)
      | (.ok fetched, session) =>
        match oneByOne (loadRow reg conn below target) (fetched.map (stripOwner relation))
            session with
        | (.error failure, session) => (.error failure, session)
        | (.ok children, session) =>
          loadRow reg conn siblings owner (row.set name (attached relation.cardinality children))
            session

/-- The text of the key that a row asks for. -/
def askedKey (column : String) (row : Json) : Option String := (keyPair? column row).map (·.1)

/-- The rows of the database that belong to a row. -/
def kin (stock : Schema → Relation → List Json) (target : Schema) (relation : Relation)
    (row : Json) : List Json :=
  match askedKey relation.localKey row with
  | none => []
  | some key =>
    (stock target relation).filter fun child => rowKey? (ownerColumn relation) child = some key

/-- What a row becomes when the relations of a forest are loaded. -/
def completed (reg : Registry) (stock : Schema → Relation → List Json) :
    Forest → Schema → Json → Json
  | .nil, _, row => row
  | .node name below siblings, owner, row =>
    match relationTo reg owner name with
    | .error _ => row
    | .ok (relation, target) =>
      completed reg stock siblings owner
        (row.set name (attached relation.cardinality
          ((kin stock target relation row).map fun child =>
            completed reg stock below target (stripOwner relation child))))

theorem isObject_completed (forest : Forest) (row : Json) :
    (completed reg stock forest owner row).isObject = row.isObject := by
  induction forest generalizing owner row with
  | nil => rfl
  | node name below siblings _ ih =>
    rw [completed]
    cases relationTo reg owner name with
    | error cause => rfl
    | ok found =>
      obtain ⟨relation, target⟩ := found
      exact (ih _).trans (Json.isObject_set _ _ _)

/-! ### Keys -/

/-- The row has scalars, but for the names under which children were attached: what stands there
cannot be asked for. -/
structure Tidy (written : List String) (row : Json) : Prop where
  isObject : row.isObject
  scalar : ∀ column ∉ written, ∀ value, row.get? column = some value → value.IsScalar
  overwritten : ∀ column ∈ written, ∀ value, row.get? column = some value → keyParam? value = none

theorem tidy_of_isFlat {row : Json} (h : row.IsFlat) : Tidy [] row where
  isObject := h.isObject
  scalar _ _ _ hvalue := h.isScalar hvalue
  overwritten _ hcolumn := absurd hcolumn List.not_mem_nil

theorem Tidy.set {written : List String} {row value : Json} (h : Tidy written row) (name : String)
    (hvalue : keyParam? value = none) : Tidy (name :: written) (row.set name value) := by
  refine ⟨(Json.isObject_set ..).trans h.isObject, fun column hcolumn other hother => ?_,
    fun column hcolumn other hother => ?_⟩
  · rw [List.mem_cons, not_or] at hcolumn
    rw [Json.get?_set_of_ne _ _ hcolumn.1] at hother
    exact h.scalar column hcolumn.2 other hother
  · by_cases hname : column = name
    · rw [hname, Json.get?_set_self, if_pos h.isObject] at hother
      exact Option.some.inj hother ▸ hvalue
    · rw [Json.get?_set_of_ne _ _ hname] at hother
      exact h.overwritten column ((List.mem_cons.1 hcolumn).resolve_left hname) other hother

/-- Children are objects, so neither they nor their list can be asked for. -/
theorem keyParam?_attached (cardinality : Cardinality) {children : List Json}
    (h : ∀ child ∈ children, child.isObject) :
    keyParam? (attached cardinality children) = none := by
  cases cardinality with
  | toMany => rfl
  | toOne =>
    cases children with
    | nil => rfl
    | cons child rest =>
      have hobject := h child List.mem_cons_self
      cases child with
      | obj members => rfl
      | _ => cases hobject

theorem exists_keyParam {value : Json} {text : String} (h : value.IsScalar)
    (htext : keyText? value = some text) :
    ∃ param, keyParam? value = some param ∧ param.keyText = text := by
  cases value with
  | null => cases htext
  | bool b => exact ⟨_, rfl, Option.some.inj htext⟩
  | int n => exact ⟨.int n, by rw [keyParam?, if_pos h.2], Option.some.inj htext⟩
  | str s => exact ⟨_, rfl, Option.some.inj htext⟩
  | _ => cases h

section

variable {written : List String} {row : Json} {column : String}

theorem keyPair?_eq_some_iff {text : String} {param : Sql.Param} :
    keyPair? column row = some (text, param) ↔ ∃ value, row.get? column = some value ∧
      keyText? value = some text ∧ keyParam? value = some param := by
  simp [keyPair?, Option.bind_eq_some_iff]

theorem Tidy.askedKey_of_mem (h : Tidy written row) (hcolumn : column ∈ written) :
    askedKey column row = none := by
  unfold askedKey
  cases hpair : keyPair? column row with
  | none => rfl
  | some pair =>
    obtain ⟨value, hvalue, -, hparam⟩ := keyPair?_eq_some_iff.1 hpair
    rw [h.overwritten column hcolumn value hvalue] at hparam
    cases hparam

/-- In a column of scalars the key that is compared is the key that is asked for. -/
theorem Tidy.askedKey_of_not_mem (h : Tidy written row) (hcolumn : column ∉ written) :
    askedKey column row = rowKey? column row := by
  unfold askedKey rowKey? keyPair?
  cases hvalue : row.get? column with
  | none => rfl
  | some value =>
    cases htext : keyText? value with
    | none => simp [htext]
    | some text =>
      obtain ⟨param, hparam, -⟩ := exists_keyParam (h.scalar column hcolumn value hvalue) htext
      simp [htext, hparam]

theorem Tidy.keyText_of_keyPair? (h : Tidy written row) {text : String} {param : Sql.Param}
    (hpair : keyPair? column row = some (text, param)) : param.keyText = text := by
  by_cases hcolumn : column ∈ written
  · have hnone := h.askedKey_of_mem hcolumn
    rw [askedKey, hpair] at hnone
    cases hnone
  · obtain ⟨value, hvalue, htext, hparam⟩ := keyPair?_eq_some_iff.1 hpair
    obtain ⟨other, hother, heq⟩ := exists_keyParam (h.scalar column hcolumn value hvalue) htext
    rw [← heq, Option.some.inj (hparam.symm.trans hother)]

end

/-- A batch asks for the keys of its rows, each text once. -/
theorem mem_keyTexts_iff {written : List String} {rows : List Json} {column text : String}
    (hrows : ∀ row ∈ rows, Tidy written row) :
    text ∈ (distinctKeys rows column).values.map Sql.Param.keyText ↔
      ∃ row ∈ rows, askedKey column row = some text := by
  have hpairs : ∀ pair : String × Sql.Param, pair ∈ rows.filterMap (keyPair? column) →
      pair.2.keyText = pair.1 := by
    intro pair hpair
    obtain ⟨row, hrow, hpair⟩ := List.mem_filterMap.1 hpair
    exact (hrows row hrow).keyText_of_keyPair? hpair
  rw [Dict.values, List.map_map, List.mem_map]
  constructor
  · rintro ⟨pair, hpair, rfl⟩
    have hmem := Entries.mem_of_mem_ofList hpair
    obtain ⟨row, hrow, hpair⟩ := List.mem_filterMap.1 hmem
    refine ⟨row, hrow, ?_⟩
    rw [askedKey, hpair, Function.comp_apply, hpairs pair hmem]
    rfl
  · rintro ⟨row, hrow, hasked⟩
    obtain ⟨pair, hpair, rfl⟩ := Option.map_eq_some_iff.1 hasked
    obtain ⟨param, hparam⟩ := Entries.exists_mem_ofList (List.mem_filterMap.2 ⟨row, hrow, hpair⟩)
    exact ⟨_, hparam, hpairs _ (Entries.mem_of_mem_ofList hparam)⟩

/-- A batch finds the rows of the list that one of its own rows asks for. -/
theorem foundFor_served {written : List String} {rows : List Json}
    (hrows : ∀ row ∈ rows, Tidy written row) :
    foundFor (served stock) target relation rows =
      (stock target relation).filter fun child => (rowKey? (ownerColumn relation) child).any
        fun text => rows.any fun row => askedKey relation.localKey row = some text := by
  have hserved : foundFor (served stock) target relation rows =
      served stock target relation (distinctKeys rows relation.localKey).values := by
    unfold foundFor
    cases (distinctKeys rows relation.localKey).values with
    | nil => exact (List.filter_eq_nil_iff.2 fun child _ => by cases rowKey? _ child <;> simp).symm
    | cons key keys => rfl
  rw [hserved, served]
  refine List.filter_congr fun child _ => ?_
  cases rowKey? (ownerColumn relation) child with
  | none => rfl
  | some text =>
    rw [Option.any_some, Option.any_some, Bool.eq_iff_iff, List.contains_iff_mem,
      mem_keyTexts_iff hrows, List.any_eq_true]
    simp only [decide_eq_true_eq]

theorem childrenOf_zip (key : String) (ownerOf : Json → Option String) (f : Json → Json)
    (fetched : List Json) :
    childrenOf (some key) ((fetched.map ownerOf).zip (fetched.map f)) =
      (fetched.filter fun child => ownerOf child = some key).map f := by
  induction fetched with
  | nil => rfl
  | cons child rest ih =>
    rw [childrenOf] at ih ⊢
    simp only [List.map_cons, List.zip_cons_cons, List.filterMap_cons, List.filter_cons]
    by_cases hkey : ownerOf child = some key
    · simp [hkey, ih]
    · simp [hkey, ih]

/-- **What a batch hands to a row is what the row alone would find.** -/
theorem childrenOf_foundFor {written : List String} {rows : List Json} {row : Json}
    (hrows : ∀ row ∈ rows, Tidy written row) (hrow : row ∈ rows) (f : Json → Json) :
    childrenOf (rowKey? relation.localKey row)
      (((foundFor (served stock) target relation rows).map (rowKey? (ownerColumn relation))).zip
        ((foundFor (served stock) target relation rows).map f)) =
      (kin stock target relation row).map f := by
  rw [foundFor_served hrows]
  by_cases hlocal : relation.localKey ∈ written
  · -- no row of the batch asks for anything, so nothing is found
    have hnone : ∀ row ∈ rows, askedKey relation.localKey row = none :=
      fun row hrow => (hrows row hrow).askedKey_of_mem hlocal
    have hany : ∀ text,
        (rows.any fun row => askedKey relation.localKey row = some text) = false := by
      intro text
      refine List.any_eq_false.2 fun row hrow => ?_
      simp [hnone row hrow]
    have hempty : ((stock target relation).filter fun child =>
        (rowKey? (ownerColumn relation) child).any fun text =>
          rows.any fun row => askedKey relation.localKey row = some text) = [] := by
      refine List.filter_eq_nil_iff.2 fun child _ => ?_
      cases rowKey? (ownerColumn relation) child with
      | none => simp
      | some text => simp [hany text]
    rw [hempty, kin, hnone row hrow]
    cases rowKey? relation.localKey row <;> rfl
  · have hasked := (hrows row hrow).askedKey_of_not_mem hlocal
    rw [kin, hasked]
    cases hkey : rowKey? relation.localKey row with
    | none => rfl
    | some key =>
      rw [childrenOf_zip, List.filter_filter]
      congr 1
      refine List.filter_congr fun child _ => ?_
      by_cases hchild : rowKey? (ownerColumn relation) child = some key
      · have hany : (rows.any fun row => askedKey relation.localKey row = some key) = true :=
          List.any_eq_true.2 ⟨row, hrow, by rw [hasked, hkey]; simp⟩
        simp [hchild, hany]
      · simp [hchild]

/-- **Step.** Attaching what a batch has found gives every row what is its own. -/
theorem attachFound_eq_map {written : List String} {rows : List Json} (name : String)
    (hrows : ∀ row ∈ rows, Tidy written row) (f : Json → Json) :
    attachFound name relation (foundFor (served stock) target relation rows)
      ((foundFor (served stock) target relation rows).map f) rows =
      rows.map fun row =>
        row.set name (attached relation.cardinality ((kin stock target relation row).map f)) := by
  unfold attachFound attach
  refine List.map_congr_left fun row hrow => ?_
  rw [childrenOf_foundFor hrows hrow]

/-! ### Both loaders -/

namespace Stocked

theorem isFlat_stripOwner (hconn : Stocked conn stock) (target : Schema) {child : Json}
    (hchild : child ∈ stock target relation) : (stripOwner relation child).IsFlat := by
  have hflat := hconn.isFlat target relation child hchild
  unfold stripOwner
  split
  · exact hflat.erase _
  · exact hflat

theorem tidy_found (hconn : Stocked conn stock) {rows : List Json} :
    ∀ child ∈ (foundFor (served stock) target relation rows).map (stripOwner relation),
      Tidy [] child := by
  intro child hchild
  obtain ⟨found, hfound, rfl⟩ := List.mem_map.1 hchild
  refine tidy_of_isFlat (hconn.isFlat_stripOwner target ?_)
  unfold foundFor at hfound
  split at hfound
  · cases hfound
  · exact (List.mem_filter.1 hfound).1

theorem tidy_set (hconn : Stocked conn stock) {written : List String} {row : Json} {below : Forest}
    (name : String) (h : Tidy written row) :
    Tidy (name :: written) (row.set name (attached relation.cardinality
      ((kin stock target relation row).map fun child =>
        completed reg stock below target (stripOwner relation child)))) := by
  refine h.set name (keyParam?_attached _ fun child hchild => ?_)
  obtain ⟨found, hfound, rfl⟩ := List.mem_map.1 hchild
  rw [isObject_completed]
  refine (hconn.isFlat_stripOwner target ?_).isObject
  unfold kin at hfound
  split at hfound
  · cases hfound
  · exact (List.mem_filter.1 hfound).1

theorem load_eq (hconn : Stocked conn stock) {forest : Forest} (hfits : forest.Fits reg owner)
    {written : List String} {rows : List Json} (hrows : ∀ row ∈ rows, Tidy written row)
    (session : Session κ) :
    (load reg conn forest owner rows session).1 =
      .ok (rows.map (completed reg stock forest owner)) := by
  induction forest generalizing owner written rows session with
  | nil => simp [load, completed]
  | node name below siblings ihBelow ihSiblings =>
    obtain ⟨⟨relation, target, hrelation, htarget, hbelow⟩, hsiblings⟩ := hfits
    have hchildren : ∀ session, (load reg conn below target
        ((foundFor (served stock) target relation rows).map (stripOwner relation)) session).1 =
          .ok ((foundFor (served stock) target relation rows).map fun child =>
            completed reg stock below target (stripOwner relation child)) := by
      intro session
      rw [ihBelow hbelow hconn.tidy_found session, List.map_map]
      rfl
    obtain ⟨after, hstep⟩ : ∃ after,
        load reg conn (.node name below siblings) owner rows session =
          load reg conn siblings owner _ after :=
      load_node_of_steady hconn.steady hrelation htarget hchildren session
    have htidy : ∀ row ∈ rows.map fun row => row.set name (attached relation.cardinality
        ((kin stock target relation row).map fun child =>
          completed reg stock below target (stripOwner relation child))),
        Tidy (name :: written) row := by
      intro row hrow
      obtain ⟨before, hbefore, rfl⟩ := List.mem_map.1 hrow
      exact hconn.tidy_set name (hrows before hbefore)
    rw [hstep, attachFound_eq_map name hrows, ihSiblings hsiblings htidy, List.map_map]
    simp only [completed, relationTo_eq_ok hrelation htarget]
    rfl

theorem foundFor_singleton {written : List String} {row : Json} (h : Tidy written row) :
    foundFor (served stock) target relation [row] = kin stock target relation row := by
  have hrows : ∀ other ∈ [row], Tidy written other := fun other hother =>
    List.mem_singleton.1 hother ▸ h
  rw [foundFor_served hrows, kin]
  cases hasked : askedKey relation.localKey row with
  | none =>
    refine List.filter_eq_nil_iff.2 fun child _ => ?_
    cases rowKey? (ownerColumn relation) child <;> simp [hasked]
  | some key =>
    refine List.filter_congr fun child _ => ?_
    cases rowKey? (ownerColumn relation) child with
    | none => simp
    | some text => simp [hasked, eq_comm]

/-- Rows that are loaded one by one, each in any session, are loaded as a list. -/
theorem oneByOne_eq {step : Json → Session κ → Outcome κ Json} {f : Json → Json} {rows : List Json}
    (h : ∀ row ∈ rows, ∀ session, (step row session).1 = .ok (f row)) (session : Session κ) :
    (oneByOne step rows session).1 = .ok (rows.map f) := by
  induction rows generalizing session with
  | nil => rfl
  | cons row rows ih =>
    obtain ⟨after, hrow⟩ : ∃ after, step row session = (.ok (f row), after) :=
      Outcome.exists_of_fst (h row List.mem_cons_self session)
    obtain ⟨final, hrest⟩ : ∃ final, oneByOne step rows after = (.ok (rows.map f), final) :=
      Outcome.exists_of_fst (ih (fun row hrow => h row (List.mem_cons_of_mem _ hrow)) after)
    rw [oneByOne, hrow]
    simp only [hrest]
    rfl

theorem loadRow_eq (hconn : Stocked conn stock) {forest : Forest} (hfits : forest.Fits reg owner)
    {written : List String} {row : Json} (hrow : Tidy written row) (session : Session κ) :
    (loadRow reg conn forest owner row session).1 = .ok (completed reg stock forest owner row) := by
  induction forest generalizing owner written row session with
  | nil => rfl
  | node name below siblings ihBelow ihSiblings =>
    obtain ⟨⟨relation, target, hrelation, htarget, hbelow⟩, hsiblings⟩ := hfits
    obtain ⟨fetchedAt, hfetch⟩ : ∃ fetchedAt, fetch conn owner name relation target [row] session =
        (.ok (foundFor (served stock) target relation [row]), fetchedAt) :=
      Outcome.exists_of_fst (fetch_of_steady hconn.steady owner name session)
    obtain ⟨after, hloaded⟩ : ∃ after, oneByOne (loadRow reg conn below target)
        ((foundFor (served stock) target relation [row]).map (stripOwner relation)) fetchedAt =
          (.ok (((foundFor (served stock) target relation [row]).map (stripOwner relation)).map
            (completed reg stock below target)), after) :=
      Outcome.exists_of_fst (oneByOne_eq (fun child hchild session =>
        ihBelow hbelow (hconn.tidy_found child hchild) session) fetchedAt)
    rw [loadRow, relationTo_eq_ok hrelation htarget]
    simp only [hfetch, hloaded]
    rw [foundFor_singleton hrow, List.map_map]
    simp only [completed, relationTo_eq_ok hrelation htarget]
    exact ihSiblings hsiblings (hconn.tidy_set name hrow) after

end Stocked

/-- **A batch loads as its rows do one by one.** -/
theorem load_append (hconn : Stocked conn stock) (graph : FetchGraph)
    (hfits : graph.forest.Fits reg owner) {first second : List Json}
    (hfirst : ∀ row ∈ first, row.IsFlat) (hsecond : ∀ row ∈ second, row.IsFlat)
    (s₁ s₂ s₃ s₄ : Session κ) :
    ∃ loaded₁ loaded₂, (load reg conn graph.forest owner first s₁).1 = .ok loaded₁ ∧
      (load reg conn graph.forest owner second s₂).1 = .ok loaded₂ ∧
      (load reg conn graph.forest owner (first ++ second) s₃).1 = .ok (loaded₁ ++ loaded₂) ∧
      (oneByOne (loadRow reg conn graph.forest owner) (first ++ second) s₄).1 =
        .ok (loaded₁ ++ loaded₂) := by
  have htidy : ∀ rows : List Json, (∀ row ∈ rows, row.IsFlat) → ∀ row ∈ rows, Tidy [] row :=
    fun rows hflat row hrow => tidy_of_isFlat (hflat row hrow)
  have hboth : ∀ row ∈ first ++ second, row.IsFlat := fun row hrow =>
    (List.mem_append.1 hrow).elim (hfirst row) (hsecond row)
  refine ⟨_, _, hconn.load_eq hfits (htidy first hfirst) s₁,
    hconn.load_eq hfits (htidy second hsecond) s₂, ?_, ?_⟩
  · rw [hconn.load_eq hfits (htidy _ hboth), List.map_append]
  · rw [Stocked.oneByOne_eq (fun row hrow session =>
      hconn.loadRow_eq hfits (htidy _ hboth row hrow) session), List.map_append]

/-! ### Two members of one team -/

/-- A database with a list of rows for each question, whatever the keys that are asked for. -/
def shelved (shelf : Sql.Statement → List Json) : Connection Unit where
  answer statement state :=
    match statement.condition with
    | some (.test column (.isIn keys)) =>
      let ownedBy := if statement.joins.isEmpty then column.name else Sql.ownerKeyColumn
      (.ok ((shelf { statement with condition := none }).filter fun child =>
        (rowKey? ownedBy child).any (keys.map Sql.Param.keyText).contains), state)
    | _ => (.ok [], state)

/-- The lists of such a database, by relation. -/
def stockOf (shelf : Sql.Statement → List Json) (target : Schema) (relation : Relation) :
    List Json :=
  shelf { Sql.selectChildren target relation [] with condition := none }

theorem stocked_shelved {shelf : Sql.Statement → List Json}
    (hshelf : ∀ question, ∀ child ∈ shelf question, child.IsFlat) :
    Stocked (shelved shelf) (stockOf shelf) where
  steady target relation keys state := by
    unfold served stockOf shelved ownerColumn Sql.selectChildren
    cases relation.via <;> rfl
  isFlat target relation child hchild := hshelf _ child hchild

/-- Members, each of one team and with any number of roles. -/
def members : Schema :=
  (Schema.new "member" "members").scalar "id" .long |>.toOne "team" "team" "team_id" "id"
    |>.relation "roles"
      ⟨"role", .toMany, "id", "id", some ⟨"member_roles", "member_id", "role_id"⟩⟩

/-- A model of members, teams and roles. -/
def club : Registry :=
  .ofList [members, (Schema.new "team" "teams").toMany "members" "member" "id" "team_id",
    Schema.new "role" "roles"]

/-- One team, its two members, and a role that both of them have. -/
def clubShelf (question : Sql.Statement) : List Json :=
  if question.table = "teams" then [.obj [("id", .int 1)]]
  else if question.table = "members" then
    [.obj [("id", .int 10), ("team_id", .int 1)], .obj [("id", .int 11), ("team_id", .int 1)]]
  else [.obj [("__owner_key", .int 10), ("id", .int 5)],
    .obj [("__owner_key", .int 11), ("id", .int 5)]]

/-- The roles, and the team with its members. -/
def clubGraph : FetchGraph :=
  ⟨.node "roles" .nil (.node "team" (.node "members" .nil .nil) .nil), by
    simp only [Forest.Ordered, and_true]
    decide⟩

/-- A member who has the key of the team as a number. -/
def ann : Json := .obj [("id", .int 10), ("team_id", .int 1)]

/-- A member who has the key of the team as a text. -/
def bob : Json := .obj [("id", .int 11), ("team_id", .str "1")]

/-- What a member's row becomes. -/
def memberLoaded (id : Int) (key : Json) : Json :=
  .obj [("id", .int id), ("roles", .arr [.obj [("id", .int 5)]]),
    ("team", .obj [("id", .int 1), ("members", .arr [.obj [("id", .int 10), ("team_id", .int 1)],
      .obj [("id", .int 11), ("team_id", .int 1)]])]), ("team_id", key)]

theorem fits_clubGraph : clubGraph.forest.Fits club members :=
  ⟨⟨_, _, rfl, rfl, trivial⟩, ⟨_, _, rfl, rfl, ⟨_, _, rfl, rfl, trivial⟩, trivial⟩, trivial⟩

theorem isFlat_of_mem_clubShelf (question : Sql.Statement) :
    ∀ child ∈ clubShelf question, child.IsFlat := by
  unfold clubShelf
  split
  · decide
  · split <;> decide

/-- Two members share a team and a role, and either loads as if alone. -/
theorem load_append_of_team_mates :
    Stocked (shelved clubShelf) (stockOf clubShelf) ∧ clubGraph.forest.Fits club members ∧
      (∀ row ∈ [ann], row.IsFlat) ∧ (∀ row ∈ [bob], row.IsFlat) ∧
      ∃ loaded₁ loaded₂ : List Json,
        (load club (shelved clubShelf) clubGraph.forest members [ann] ⟨(), []⟩).1 = .ok loaded₁ ∧
        (load club (shelved clubShelf) clubGraph.forest members [bob] ⟨(), []⟩).1 = .ok loaded₂ ∧
        (oneByOne (loadRow club (shelved clubShelf) clubGraph.forest members) [ann, bob]
          ⟨(), []⟩).1 = .ok (loaded₁ ++ loaded₂) ∧
        loaded₁ ++ loaded₂ = [memberLoaded 10 (.int 1), memberLoaded 11 (.str "1")] := by
  have hconn := stocked_shelved isFlat_of_mem_clubShelf
  have hfits := fits_clubGraph
  have hann : ∀ row ∈ [ann], row.IsFlat := by decide
  have hbob : ∀ row ∈ [bob], row.IsFlat := by decide
  obtain ⟨loaded₁, loaded₂, hfirst, hsecond, hbatch, hnaive⟩ :=
    load_append hconn clubGraph hfits hann hbob ⟨(), []⟩ ⟨(), []⟩ ⟨(), []⟩ ⟨(), []⟩
  have hrows : (load club (shelved clubShelf) clubGraph.forest members [ann, bob] ⟨(), []⟩).1 =
      .ok [memberLoaded 10 (.int 1), memberLoaded 11 (.str "1")] := rfl
  exact ⟨hconn, hfits, hann, hbob, loaded₁, loaded₂, hfirst, hsecond, hnaive,
    Except.ok.inj (hbatch.symm.trans hrows)⟩

end EagerLoad

end QuerySieve
