/-!
# QuerySieve.Dict

Finite maps with text keys, kept in ascending key order (order of code points).

`Dict α` is a list of entries with the proof that its keys ascend, so a map has one representation
only: two maps that look up alike are equal (`Dict.ext_get?`). The list functions `Entries.*` do the
work; JSON objects, whose members must nest, use them on bare lists.
-/

namespace QuerySieve

variable {α β : Type}

namespace Entries

/-- The value at the first entry with this key. -/
def get? (key : String) : List (String × α) → Option α
  | [] => none
  | (k, v) :: rest => if k = key then some v else get? key rest

/-- Sets the value of a key, replacing an entry of that key in an ascending list. -/
def insert (key : String) (value : α) : List (String × α) → List (String × α)
  | [] => [(key, value)]
  | (k, v) :: rest =>
    if key < k then (key, value) :: (k, v) :: rest
    else if key = k then (key, value) :: rest
    else (k, v) :: insert key value rest

/-- Drops every entry with this key. -/
def erase (key : String) (entries : List (String × α)) : List (String × α) :=
  entries.filter fun e => e.1 ≠ key

/-- The entries inserted one after the other, so that the last of a key wins. -/
def ofList (entries : List (String × α)) : List (String × α) :=
  entries.foldl (fun acc e => insert e.1 e.2 acc) []

/-- Keys strictly ascend. -/
def Ascending (entries : List (String × α)) : Prop :=
  entries.Pairwise fun a b => a.1 < b.1

@[simp] theorem get?_nil (key : String) : get? key ([] : List (String × α)) = none := rfl

theorem mem_of_mem_insert {key : String} {value : α} {e : String × α}
    {entries : List (String × α)} (h : e ∈ insert key value entries) :
    e = (key, value) ∨ e ∈ entries := by
  induction entries with
  | nil => simpa [insert] using h
  | cons hd rest ih =>
    obtain ⟨k, v⟩ := hd
    rw [insert] at h
    split at h
    · exact List.mem_cons.1 h
    · split at h
      · rcases List.mem_cons.1 h with h | h
        · exact .inl h
        · exact .inr (List.mem_cons_of_mem _ h)
      · rcases List.mem_cons.1 h with h | h
        · exact .inr (by rw [h]; exact List.mem_cons_self ..)
        · rcases ih h with h | h
          · exact .inl h
          · exact .inr (List.mem_cons_of_mem _ h)

theorem ascending_insert (key : String) (value : α) {entries : List (String × α)}
    (h : Ascending entries) : Ascending (insert key value entries) := by
  induction entries with
  | nil => simp [insert, Ascending]
  | cons hd rest ih =>
    obtain ⟨k, v⟩ := hd
    have hrest := List.pairwise_cons.1 h
    rw [insert]
    split
    · rename_i hlt
      refine List.pairwise_cons.2 ⟨fun e he => ?_, h⟩
      rcases List.mem_cons.1 he with rfl | he
      · exact hlt
      · exact String.lt_trans hlt (hrest.1 e he)
    · split
      · rename_i heq
        exact List.pairwise_cons.2 ⟨fun e he => heq ▸ hrest.1 e he, hrest.2⟩
      · rename_i hnlt hne
        refine List.pairwise_cons.2 ⟨fun e he => ?_, ih hrest.2⟩
        rcases mem_of_mem_insert he with rfl | he
        · rcases Std.lt_trichotomy key k with h | h | h
          · exact absurd h hnlt
          · exact absurd h hne
          · exact h
        · exact hrest.1 e he

theorem ascending_ofList (entries : List (String × α)) : Ascending (ofList entries) := by
  have go : ∀ (es acc : List (String × α)), Ascending acc →
      Ascending (es.foldl (fun acc e => insert e.1 e.2 acc) acc) := by
    intro es
    induction es with
    | nil => intro acc h; exact h
    | cons e es ih => intro acc h; exact ih _ (ascending_insert _ _ h)
  exact go entries [] List.Pairwise.nil

@[simp] theorem get?_insert_self (key : String) (value : α) (entries : List (String × α)) :
    get? key (insert key value entries) = some value := by
  induction entries with
  | nil => simp [insert, get?]
  | cons hd rest ih =>
    obtain ⟨k, v⟩ := hd
    rw [insert]
    split
    · simp [get?]
    · split
      · simp [get?]
      · rename_i hne
        simp [get?, Ne.symm hne, ih]

theorem get?_insert_of_ne {key other : String} (value : α) (entries : List (String × α))
    (h : other ≠ key) : get? other (insert key value entries) = get? other entries := by
  induction entries with
  | nil => simp [insert, get?, Ne.symm h]
  | cons hd rest ih =>
    obtain ⟨k, v⟩ := hd
    rw [insert]
    split
    · simp [get?, Ne.symm h]
    · split
      · rename_i heq
        subst heq
        simp [get?, Ne.symm h]
      · simp [get?, ih]

/-- A key that all entries exceed is absent. -/
theorem get?_eq_none_of_lt {key : String} {entries : List (String × α)}
    (h : ∀ e ∈ entries, key < e.1) : get? key entries = none := by
  induction entries with
  | nil => rfl
  | cons hd rest ih =>
    obtain ⟨k, v⟩ := hd
    have hk : k ≠ key := by
      rintro rfl
      exact String.lt_irrefl _ (h _ (List.mem_cons_self ..))
    simp [get?, hk, ih fun e he => h e (List.mem_cons_of_mem _ he)]

theorem mem_of_get?_eq_some {key : String} {value : α} {entries : List (String × α)}
    (h : get? key entries = some value) : (key, value) ∈ entries := by
  induction entries with
  | nil => simp at h
  | cons hd rest ih =>
    obtain ⟨k, v⟩ := hd
    rw [get?] at h
    split at h
    · simp_all
    · exact List.mem_cons_of_mem _ (ih h)

/-- In an ascending list every entry is the one its key finds. -/
theorem get?_eq_some_of_mem {key : String} {value : α} {entries : List (String × α)}
    (hs : Ascending entries) (h : (key, value) ∈ entries) : get? key entries = some value := by
  induction entries with
  | nil => simp at h
  | cons hd rest ih =>
    obtain ⟨k, v⟩ := hd
    have hrest := List.pairwise_cons.1 hs
    rcases List.mem_cons.1 h with h | h
    · simp_all [get?]
    · have hk : k ≠ key := by
        rintro rfl
        exact String.lt_irrefl k (hrest.1 (k, value) h)
      simp [get?, hk, ih hrest.2 h]

theorem mem_of_mem_ofList {entries : List (String × α)} {e : String × α} (h : e ∈ ofList entries) :
    e ∈ entries := by
  have go : ∀ (es acc : List (String × α)),
      e ∈ es.foldl (fun acc e => insert e.1 e.2 acc) acc → e ∈ es ∨ e ∈ acc := by
    intro es
    induction es with
    | nil => exact fun acc h => .inr h
    | cons hd rest ih =>
      intro acc h
      rcases ih _ h with h | h
      · exact .inl (List.mem_cons_of_mem _ h)
      · rcases mem_of_mem_insert h with rfl | h
        · exact .inl (List.mem_cons_self ..)
        · exact .inr h
  exact (go entries [] h).resolve_right List.not_mem_nil

/-- Among the entries inserted, every key stays. -/
theorem exists_mem_ofList {entries : List (String × α)} {key : String} {value : α}
    (h : (key, value) ∈ entries) : ∃ value, (key, value) ∈ ofList entries := by
  have go : ∀ (es acc : List (String × α)),
      (∃ value, (key, value) ∈ es) ∨ (get? key acc).isSome →
        (get? key (es.foldl (fun acc e => insert e.1 e.2 acc) acc)).isSome := by
    intro es
    induction es with
    | nil => simp
    | cons hd rest ih =>
      intro acc h
      refine ih _ ?_
      by_cases hkey : key = hd.1
      · exact .inr (by rw [hkey, get?_insert_self]; rfl)
      · rw [get?_insert_of_ne _ _ hkey]
        refine h.imp_left ?_
        rintro ⟨value, h⟩
        exact ⟨value, (List.mem_cons.1 h).resolve_left fun heq => hkey (congrArg Prod.fst heq)⟩
  obtain ⟨value, hvalue⟩ := Option.isSome_iff_exists.1 (go entries [] (.inl ⟨value, h⟩))
  exact ⟨value, mem_of_get?_eq_some hvalue⟩

/-- Ascending lists that look up alike are equal. -/
theorem ext_get? {a b : List (String × α)} (ha : Ascending a) (hb : Ascending b)
    (h : ∀ key, get? key a = get? key b) : a = b := by
  induction a generalizing b with
  | nil =>
    cases b with
    | nil => rfl
    | cons hd rest =>
      have := h hd.1
      simp [get?] at this
  | cons x xs ih =>
    cases b with
    | nil =>
      have := h x.1
      simp [get?] at this
    | cons y ys =>
      obtain ⟨xk, xv⟩ := x
      obtain ⟨yk, yv⟩ := y
      have hx := List.pairwise_cons.1 ha
      have hy := List.pairwise_cons.1 hb
      have hkey : xk = yk := by
        rcases Std.lt_trichotomy xk yk with hlt | heq | hlt
        · have h1 := h xk
          have hnone : get? xk ((yk, yv) :: ys) = none := get?_eq_none_of_lt ?_
          · rw [hnone] at h1; simp [get?] at h1
          · intro e he
            rcases List.mem_cons.1 he with rfl | he
            · exact hlt
            · exact String.lt_trans hlt (hy.1 e he)
        · exact heq
        · have h1 := h yk
          have hnone : get? yk ((xk, xv) :: xs) = none := get?_eq_none_of_lt ?_
          · rw [hnone] at h1; simp [get?] at h1
          · intro e he
            rcases List.mem_cons.1 he with rfl | he
            · exact hlt
            · exact String.lt_trans hlt (hx.1 e he)
      subst hkey
      have hval : xv = yv := by
        have := h xk
        simpa [get?] using this
      subst hval
      have : xs = ys := by
        refine ih hx.2 hy.2 fun key => ?_
        by_cases hk : xk = key
        · subst hk
          rw [get?_eq_none_of_lt hx.1, get?_eq_none_of_lt hy.1]
        · have := h key
          simpa [get?, hk] using this
      rw [this]

theorem get?_map (f : α → β) (key : String) (entries : List (String × α)) :
    get? key (entries.map fun e => (e.1, f e.2)) = (get? key entries).map f := by
  induction entries with
  | nil => rfl
  | cons e rest ih =>
    rw [List.map_cons, get?, get?, ih]
    split <;> rfl

theorem ascending_map {f : α → β} {entries : List (String × α)} (h : Ascending entries) :
    Ascending (entries.map fun e => (e.1, f e.2)) :=
  List.pairwise_map.2 h

theorem insert_eq_append {key : String} {value : α} {entries : List (String × α)}
    (h : ∀ e ∈ entries, e.1 < key) : insert key value entries = entries ++ [(key, value)] := by
  induction entries with
  | nil => rfl
  | cons e rest ih =>
    have hlt := h e List.mem_cons_self
    rw [insert, if_neg (String.lt_asymm hlt), if_neg (String.ne_of_lt hlt).symm,
      ih fun e he => h e (List.mem_cons_of_mem _ he)]
    rfl

/-- Ascending entries stay as they are. -/
theorem ofList_of_ascending {entries : List (String × α)} (h : Ascending entries) :
    ofList entries = entries := by
  have go : ∀ es acc : List (String × α), Ascending (acc ++ es) →
      es.foldl (fun acc e => insert e.1 e.2 acc) acc = acc ++ es := by
    intro es
    induction es with
    | nil => simp
    | cons e es ih =>
      intro acc hacc
      have hlt : ∀ other ∈ acc, other.1 < e.1 := fun other hother =>
        (List.pairwise_append.1 hacc).2.2 other hother e List.mem_cons_self
      rw [List.append_cons acc e es] at hacc ⊢
      rw [List.foldl_cons, insert_eq_append hlt]
      exact ih _ hacc
  exact go entries [] h

theorem erase_insert (key : String) (value : α) (entries : List (String × α)) :
    erase key (insert key value entries) = erase key entries := by
  unfold erase
  induction entries with
  | nil => simp [insert]
  | cons e rest ih =>
    rw [insert]
    split
    · simp
    · split
      · rename_i heq
        simp [heq]
      · simp only [List.filter_cons, ih]

theorem erase_of_get?_eq_none {key : String} {entries : List (String × α)}
    (hs : Ascending entries) (h : get? key entries = none) : erase key entries = entries := by
  refine List.filter_eq_self.2 fun e he => ?_
  have hne : e.1 ≠ key := by
    rintro rfl
    rw [get?_eq_some_of_mem hs he] at h
    cases h
  simpa using hne

theorem get?_append (key : String) (before after : List (String × α)) :
    get? key (before ++ after) = (get? key before).or (get? key after) := by
  induction before with
  | nil => rfl
  | cons e rest ih =>
    rw [List.cons_append, get?, get?, ih]
    split <;> rfl

theorem get?_erase (key other : String) (entries : List (String × α)) :
    get? other (erase key entries) = if other = key then none else get? other entries := by
  unfold erase
  induction entries with
  | nil => simp
  | cons e rest ih =>
    by_cases hkey : e.1 = key
    · rw [List.filter_cons_of_neg (by simpa using hkey), ih, get?]
      split
      · rfl
      · next hne => rw [if_neg fun h => hne (h.symm.trans hkey)]
    · rw [List.filter_cons_of_pos (by simpa using hkey), get?, get?, ih]
      split
      · next heq => rw [if_neg (heq ▸ hkey)]
      · rfl

/-- Of the entries of a key the last counts. -/
theorem get?_ofList (key : String) (entries : List (String × α)) :
    get? key (ofList entries) = get? key entries.reverse := by
  have go : ∀ es acc : List (String × α),
      get? key (es.foldl (fun acc e => insert e.1 e.2 acc) acc)
        = (get? key es.reverse).or (get? key acc) := by
    intro es
    induction es with
    | nil => simp
    | cons e rest ih =>
      intro acc
      have hinsert : get? key (insert e.1 e.2 acc) = (get? key [e]).or (get? key acc) := by
        by_cases hkey : e.1 = key
        · rw [← hkey, get?_insert_self, get?, if_pos rfl, Option.some_or]
        · rw [get?_insert_of_ne _ _ (Ne.symm hkey), get?, if_neg hkey, get?, Option.none_or]
      rw [List.foldl_cons, ih, hinsert, List.reverse_cons, get?_append, Option.or_assoc]
  rw [ofList, go, get?_nil, Option.or_none]

theorem ascending_erase (key : String) {entries : List (String × α)} (h : Ascending entries) :
    Ascending (erase key entries) :=
  List.Pairwise.filter _ h

theorem erase_ofList (key : String) (entries : List (String × α)) :
    erase key (ofList entries) = ofList (erase key entries) := by
  have hascending := ascending_erase key (ascending_ofList entries)
  refine ext_get? hascending (ascending_ofList _) fun other => ?_
  have hreverse : (erase key entries).reverse = erase key entries.reverse :=
    (List.filter_reverse ..).symm
  rw [get?_erase, get?_ofList, get?_ofList, hreverse, get?_erase]

end Entries

/-- A finite map with text keys, entries in ascending key order. -/
structure Dict (α : Type) where
  /-- The entries, keys ascending. -/
  entries : List (String × α)
  ascending : Entries.Ascending entries
  deriving DecidableEq, Repr

namespace Dict

/-- The map without entries. -/
def empty : Dict α := ⟨[], List.Pairwise.nil⟩

instance : Inhabited (Dict α) := ⟨empty⟩

instance : EmptyCollection (Dict α) := ⟨empty⟩

/-- The value of a key. -/
def get? (m : Dict α) (key : String) : Option α := Entries.get? key m.entries

/-- Sets the value of a key. -/
def insert (m : Dict α) (key : String) (value : α) : Dict α :=
  ⟨Entries.insert key value m.entries, Entries.ascending_insert key value m.ascending⟩

/-- The entries inserted in order: of entries with one key the last wins. -/
def ofList (entries : List (String × α)) : Dict α :=
  ⟨Entries.ofList entries, Entries.ascending_ofList entries⟩

/-- Is there a value for this key? -/
def contains (m : Dict α) (key : String) : Bool := (m.get? key).isSome

/-- The keys, ascending. -/
def keys (m : Dict α) : List String := m.entries.map (·.1)

theorem nodup_keys (m : Dict α) : m.keys.Nodup := by
  refine List.pairwise_map.2 (m.ascending.imp fun hlt heq => ?_)
  rw [heq] at hlt
  exact String.lt_irrefl _ hlt

/-- The values, in key order. -/
def values (m : Dict α) : List α := m.entries.map (·.2)

/-- The same keys with values changed by `f`. -/
def map (f : String → α → β) (m : Dict α) : Dict β :=
  ⟨m.entries.map fun e => (e.1, f e.1 e.2), by
    have h := m.ascending
    unfold Entries.Ascending at h ⊢
    exact List.pairwise_map.2 h⟩

theorem get?_insert (m : Dict α) (key other : String) (value : α) :
    (m.insert key value).get? other = if other = key then some value else m.get? other := by
  by_cases h : other = key
  · subst h; simp [get?, insert]
  · simp [get?, insert, h, Entries.get?_insert_of_ne]

theorem get?_eq_some_iff {m : Dict α} {key : String} {value : α} :
    m.get? key = some value ↔ (key, value) ∈ m.entries :=
  ⟨Entries.mem_of_get?_eq_some, Entries.get?_eq_some_of_mem m.ascending⟩

/-- Two maps that look up alike are equal. -/
theorem ext_get? {a b : Dict α} (h : ∀ key, a.get? key = b.get? key) : a = b := by
  have := Entries.ext_get? a.ascending b.ascending h
  cases a; cases b; simp_all

/-- The entries of a map make up the map. -/
theorem ofList_entries (m : Dict α) : ofList m.entries = m :=
  ext_get? fun key => congrArg (Entries.get? key) (Entries.ofList_of_ascending m.ascending)

end Dict

end QuerySieve
