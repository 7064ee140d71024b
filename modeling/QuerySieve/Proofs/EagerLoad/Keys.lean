import QuerySieve.Proofs.EagerLoad.Batch
import QuerySieve.Proofs.Session

/-!
# QuerySieve.Proofs.EagerLoad.Keys

**What a batch asks for.**

A value of a key column has two readings: its text tells the keys of a batch apart, and its
parameter is what the statement asks for. An entry of `distinctKeys` pairs the two, one for each
text (`mem_distinctKeys`, `exists_mem_distinctKeys`). So every key is asked for once and as it
stands exactly if the readings go together (`keys_asked_as_found_iff`): keys of one text are one
key, and no integer has to be bound as a double.
-/

namespace QuerySieve

/-- The value that a parameter stands for, as rows show it: a text, a truth value or a number. -/
def Sql.Param.toJson : Sql.Param → Json
  | .int n => .int n
  | .real x => .real x
  | .bool b => .bool b
  | .text s => .str s

/-- The keys that a statement asks for. -/
def Sql.Statement.askedKeys? (statement : Sql.Statement) : Option (List Sql.Param) :=
  match statement.condition with
  | some (.test _ (.isIn keys)) => some keys
  | _ => none

theorem Sql.askedKeys?_selectChildren (target : Schema) (relation : Relation)
    (keys : List Sql.Param) : (Sql.selectChildren target relation keys).askedKeys? = some keys := by
  unfold Sql.selectChildren
  cases relation.via <;> rfl

namespace EagerLoad

variable {κ : Type} {key other asked : Sql.Param} {value : Json} {text column : String}
variable {rows : List Json}

/-- One of the rows has the value in the column. -/
def Found (rows : List Json) (column : String) (value : Json) : Prop :=
  ∃ row ∈ rows, row.get? column = some value

/-- What is asked for are the keys that the rows have in the column, each once and as it stands. -/
def AsksAsFound (rows : List Json) (column : String) (asked : List Sql.Param) : Prop :=
  asked.Nodup ∧ ∀ key : Sql.Param, key ∈ asked ↔ Found rows column key.toJson

/-- The keys in the column are told apart by their texts. -/
def TextsApart (rows : List Json) (column : String) : Prop :=
  ∀ key other : Sql.Param, Found rows column key.toJson → Found rows column other.toJson →
    key.keyText = other.keyText → key = other

/-- The integers in the column are signed 64-bit ones. -/
def IntegersSigned (rows : List Json) (column : String) : Prop :=
  ∀ n : Int, Found rows column (.int n) → n ≤ Text.int64Max

/-! ### One key -/

theorem keyText?_toJson (key : Sql.Param) : keyText? key.toJson = some key.keyText := by
  cases key <;> rfl

/-- What is asked for in a key's place: the key, and for a great integer the nearest double. -/
def bound : Sql.Param → Sql.Param
  | .int n => if n ≤ Text.int64Max then .int n else .real (.ofInt n)
  | other => other

theorem keyParam?_toJson (key : Sql.Param) : keyParam? key.toJson = some (bound key) := by
  cases key <;> rfl

theorem keyParam?_eq_some (h : keyParam? value = some asked) :
    ∃ key : Sql.Param, value = key.toJson ∧ asked = bound key := by
  cases value with
  | int n => exact ⟨.int n, rfl, (Option.some.inj h).symm⟩
  | real x => exact ⟨.real x, rfl, (Option.some.inj h).symm⟩
  | bool b => exact ⟨.bool b, rfl, (Option.some.inj h).symm⟩
  | str s => exact ⟨.text s, rfl, (Option.some.inj h).symm⟩
  | null | arr _ | obj _ => cases h

theorem bound_eq_self (h : ∀ n, key = .int n → n ≤ Text.int64Max) : bound key = key := by
  cases key with
  | int n => exact if_pos (h n rfl)
  | _ => rfl

/-- An integer that is asked for is a signed 64-bit one. -/
theorem le_of_bound_eq_int {n : Int} (h : bound key = .int n) : n ≤ Text.int64Max := by
  cases key with
  | int m =>
    rw [bound] at h
    split at h
    next hm => exact Sql.Param.int.inj h ▸ hm
    next => cases h
  | _ => cases h

/-! ### The keys of a batch -/

/-- An entry is the text of a key that was found, with what is asked for it. -/
theorem mem_distinctKeys (h : (text, asked) ∈ (distinctKeys rows column).entries) :
    ∃ key : Sql.Param, Found rows column key.toJson ∧ key.keyText = text ∧ asked = bound key := by
  obtain ⟨row, hrow, hpair⟩ := List.mem_filterMap.1 (Entries.mem_of_mem_ofList h)
  obtain ⟨value, hvalue, htext, hparam⟩ := keyPair?_eq_some_iff.1 hpair
  obtain ⟨key, rfl, hasked⟩ := keyParam?_eq_some hparam
  rw [keyText?_toJson] at htext
  exact ⟨key, ⟨row, hrow, hvalue⟩, Option.some.inj htext, hasked⟩

/-- The text of every key has an entry. -/
theorem exists_mem_distinctKeys (hfound : Found rows column key.toJson) :
    ∃ asked, (key.keyText, asked) ∈ (distinctKeys rows column).entries := by
  obtain ⟨row, hrow, hvalue⟩ := hfound
  have hpair : keyPair? column row = some (key.keyText, bound key) :=
    keyPair?_eq_some_iff.2 ⟨key.toJson, hvalue, keyText?_toJson key, keyParam?_toJson key⟩
  exact Entries.exists_mem_ofList (List.mem_filterMap.2 ⟨row, hrow, hpair⟩)

theorem mem_values_iff :
    asked ∈ (distinctKeys rows column).values ↔
      ∃ text, (text, asked) ∈ (distinctKeys rows column).entries := by
  rw [Dict.values, List.mem_map]
  constructor
  · intro h
    obtain ⟨entry, hmem, rfl⟩ := h
    exact ⟨entry.1, hmem⟩
  · intro h
    obtain ⟨text, hmem⟩ := h
    exact ⟨_, hmem, rfl⟩

/-- There is something to ask for as soon as one row has a key. -/
theorem values_eq_nil_iff :
    (distinctKeys rows column).values = [] ↔
      ¬ ∃ key : Sql.Param, Found rows column key.toJson := by
  constructor
  · intro hnil hkey
    obtain ⟨key, hfound⟩ := hkey
    obtain ⟨asked, hmem⟩ := exists_mem_distinctKeys hfound
    have hasked := mem_values_iff.2 ⟨_, hmem⟩
    rw [hnil] at hasked
    cases hasked
  · intro hnone
    refine List.eq_nil_iff_forall_not_mem.2 fun asked hmem => hnone ?_
    obtain ⟨text, hentry⟩ := mem_values_iff.1 hmem
    obtain ⟨key, hfound, -, -⟩ := mem_distinctKeys hentry
    exact ⟨key, hfound⟩

/-- A batch asks one question, or none if no row has a key. -/
theorem issued_fetch (conn : Connection κ) (owner : Schema) (name : String) (relation : Relation)
    (target : Schema) (rows : List Json) (session : Session κ) :
    (fetch conn owner name relation target rows session).2.issued = session.issued ++
      if (distinctKeys rows relation.localKey).values = [] then []
      else [Sql.selectChildren target relation (distinctKeys rows relation.localKey).values] := by
  unfold fetch
  cases (distinctKeys rows relation.localKey).values with
  | nil => simp
  | cons key keys =>
    rw [if_neg (by simp)]
    exact (Outcome.Asked.query _ _).issued

/-! ### Asking for the keys as they stand -/

section

variable (hsigned : IntegersSigned rows column)

include hsigned

/-- Without great integers an entry is a key that was found, with its text. -/
theorem found_of_mem_distinctKeys (h : (text, asked) ∈ (distinctKeys rows column).entries) :
    Found rows column asked.toJson ∧ asked.keyText = text := by
  obtain ⟨key, hfound, htext, rfl⟩ := mem_distinctKeys h
  have hself : bound key = key := by
    refine bound_eq_self fun n hn => hsigned n ?_
    rw [hn] at hfound
    exact hfound
  rw [hself]
  exact ⟨hfound, htext⟩

/-- Two entries with one parameter would have one text. -/
theorem nodup_values : (distinctKeys rows column).values.Nodup := by
  refine List.pairwise_map.2 ((distinctKeys rows column).ascending.imp_of_mem ?_)
  intro entry later hentry hlater hlt hsame
  obtain ⟨-, htext⟩ := found_of_mem_distinctKeys hsigned hentry
  obtain ⟨-, htext'⟩ := found_of_mem_distinctKeys hsigned hlater
  rw [← htext, ← htext', hsame] at hlt
  exact String.lt_irrefl _ hlt

theorem asksAsFound_of_textsApart (hapart : TextsApart rows column) :
    AsksAsFound rows column (distinctKeys rows column).values := by
  refine ⟨nodup_values hsigned, fun key => ⟨fun hmem => ?_, fun hfound => ?_⟩⟩
  · obtain ⟨text, hentry⟩ := mem_values_iff.1 hmem
    exact (found_of_mem_distinctKeys hsigned hentry).1
  · -- the entry of its text is of a key with this text, and there is one only
    obtain ⟨asked, hentry⟩ := exists_mem_distinctKeys hfound
    obtain ⟨hasked, htext⟩ := found_of_mem_distinctKeys hsigned hentry
    obtain rfl := hapart asked key hasked hfound htext
    exact mem_values_iff.2 ⟨_, hentry⟩

end

theorem integersSigned_of_asksAsFound
    (h : AsksAsFound rows column (distinctKeys rows column).values) :
    IntegersSigned rows column := by
  intro n hfound
  obtain ⟨text, hentry⟩ := mem_values_iff.1 ((h.2 (.int n)).2 hfound)
  obtain ⟨key, -, -, hbound⟩ := mem_distinctKeys hentry
  exact le_of_bound_eq_int hbound.symm

theorem textsApart_of_asksAsFound
    (h : AsksAsFound rows column (distinctKeys rows column).values) : TextsApart rows column := by
  have hsigned := integersSigned_of_asksAsFound h
  -- every key that was found has the entry of its text
  have hentry : ∀ key : Sql.Param, Found rows column key.toJson →
      (distinctKeys rows column).get? key.keyText = some key := by
    intro key hfound
    obtain ⟨text, hmem⟩ := mem_values_iff.1 ((h.2 key).2 hfound)
    obtain ⟨-, rfl⟩ := found_of_mem_distinctKeys hsigned hmem
    exact Dict.get?_eq_some_iff.2 hmem
  intro key other hkey hother hsame
  have hfirst := hentry key hkey
  rw [hsame, hentry other hother] at hfirst
  exact (Option.some.inj hfirst).symm

/-- **Every key is asked for once and as it stands**, if the texts of the keys in the column tell
them apart and its integers are signed 64-bit ones, and otherwise not. -/
theorem keys_asked_as_found_iff (conn : Connection κ) (owner : Schema) (name : String)
    (relation : Relation) (target : Schema) (rows : List Json) (session : Session κ) :
    ∃ asked : List Sql.Param,
      (fetch conn owner name relation target rows session).2.issued = session.issued ++
        (if asked = [] then [] else [Sql.selectChildren target relation asked]) ∧
      (Sql.selectChildren target relation asked).askedKeys? = some asked ∧
      (AsksAsFound rows relation.localKey asked ↔
        TextsApart rows relation.localKey ∧ IntegersSigned rows relation.localKey) :=
  ⟨(distinctKeys rows relation.localKey).values,
    issued_fetch conn owner name relation target rows session,
    Sql.askedKeys?_selectChildren target relation _,
    fun h => ⟨textsApart_of_asksAsFound h, integersSigned_of_asksAsFound h⟩,
    fun h => asksAsFound_of_textsApart h.2 h.1⟩

/-! ### Keys that are not told apart -/

/-- The team of a member. -/
def teamOf : Relation := ⟨"team", .toOne, "team_id", "id", none⟩

/-- Members of two teams whose numbers are no signed 64-bit ones. -/
def greatTeams : List Json :=
  [.obj [("team_id", .int 9223372036854775809)], .obj [("team_id", .int 9223372036854775811)]]

/-- Members of two teams, one with a text for its key and one with a number. -/
def sevenTeams : List Json := [.obj [("team_id", .str "7")], .obj [("team_id", .int 7)]]

/-- Two great numbers are asked for as one double, twice; of a text and a number that are written
alike the first is not asked for. -/
theorem keys_are_asked_for_as_others :
    (fetch .scripted members "team" teamOf (Schema.new "team" "teams") greatTeams
        ⟨[ScriptLine.rows []], []⟩).2.issued =
      [Sql.selectChildren (Schema.new "team" "teams") teamOf
        [.real ⟨0x43e0000000000000⟩, .real ⟨0x43e0000000000000⟩]] ∧
    ¬ AsksAsFound greatTeams "team_id"
      [.real ⟨0x43e0000000000000⟩, .real ⟨0x43e0000000000000⟩] ∧
    (fetch .scripted members "team" teamOf (Schema.new "team" "teams") sevenTeams
        ⟨[ScriptLine.rows []], []⟩).2.issued =
      [Sql.selectChildren (Schema.new "team" "teams") teamOf [.int 7]] ∧
    ¬ AsksAsFound sevenTeams "team_id" [.int 7] := by
  refine ⟨by decide +kernel, fun h => ?_, by decide +kernel, fun h => ?_⟩
  · exact absurd h.1 (by decide)
  · have hfound : Found sevenTeams "team_id" (Sql.Param.toJson (.text "7")) :=
      ⟨_, List.mem_cons_self, rfl⟩
    exact absurd ((h.2 _).2 hfound) (by decide)

end EagerLoad

end QuerySieve
