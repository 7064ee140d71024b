import Mathlib.Data.List.TakeWhile
import QuerySieve.Graph.Embedded
import QuerySieve.Proofs.Resolution

/-!
# QuerySieve.Proofs.Graph.Reading

**What the text of a graph is read as**, one name at a time.

`items_succ` tells reading as three steps: a name, what stands in parentheses after it
(`readBelow`), and what follows a comma (`readSiblings`). Nothing else unfolds the parser.

Every graph that is made from texts is `Legible`: its names are names that can be read, and each is,
where it stands, a relation that leads to an entity of the model. Reading makes such graphs and
merging keeps them (`Obtained.legible`).
-/

namespace QuerySieve

theorem Text.isNameChar_eq_false_of_isBlank {c : Char} (h : Text.isBlank c) :
    Text.isNameChar c = false := by
  -- the blanks are few, so they can be held against the table one by one
  have htable : ∀ n ∈ [9, 10, 11, 12, 13, 0x20, 0x85, 0xA0, 0x1680, 0x2000, 0x2001, 0x2002, 0x2003,
      0x2004, 0x2005, 0x2006, 0x2007, 0x2008, 0x2009, 0x200A, 0x2028, 0x2029, 0x202F, 0x205F,
      0x3000], Text.isNameChar (.ofNat n) = false := by decide +kernel
  rw [← Char.ofNat_toNat c]
  refine htable c.toNat ?_
  simp only [Text.isBlank, Bool.or_eq_true, Bool.and_eq_true, decide_eq_true_eq, beq_iff_eq] at h
  simp only [List.mem_cons, List.not_mem_nil, or_false]
  omega

namespace FetchGraph

variable {reg : Registry} {owner target root : Schema} {text input rest : List Char} {bound : Nat}
variable {graph children : FetchGraph}

/-! ### Reading a list -/

/-- Reads what is below a name: nothing unless there is a parenthesis, and otherwise a list up to
the parenthesis that closes it. -/
def readBelow (reg : Registry) (text : List Char) (bound : Nat) (target : Schema)
    (input : List Char) : Except GraphFault (FetchGraph × List Char) :=
  match eat? '(' input with
  | none => .ok (empty, input)
  | some inner =>
    match items reg text bound target inner with
    | .error fault => .error fault
    | .ok (children, closing) =>
      match eat? ')' closing with
      | none => .error .unclosed
      | some rest => .ok (children, rest)

/-- Reads what follows an item: nothing unless there is a comma, and otherwise more items, which are
merged into it. -/
def readSiblings (reg : Registry) (text : List Char) (bound : Nat) (owner : Schema)
    (item : FetchGraph) (input : List Char) : Except GraphFault (FetchGraph × List Char) :=
  match eat? ',' input with
  | none => .ok (item, input)
  | some more =>
    match items reg text bound owner more with
    | .error fault => .error fault
    | .ok (others, rest) => .ok (item.merge others, rest)

/-- **A list starts with a name**, and goes on after what is below it. -/
theorem items_succ (reg : Registry) (text : List Char) (bound : Nat) (owner : Schema)
    (input : List Char) :
    items reg text (bound + 1) owner input =
      if (skipBlank input).takeWhile Text.isNameChar = [] then .error (nameExpected text input)
      else relationTarget reg owner (.ofList ((skipBlank input).takeWhile Text.isNameChar))
        >>= fun target =>
          readBelow reg text bound target ((skipBlank input).dropWhile Text.isNameChar)
        >>= fun below => readSiblings reg text bound owner
          (single (.ofList ((skipBlank input).takeWhile Text.isNameChar)) below.1) below.2 := by
  rw [items]
  generalize (skipBlank input).takeWhile Text.isNameChar = name
  generalize (skipBlank input).dropWhile Text.isNameChar = following
  have hsiblings : ∀ item after, (match eat? ',' after with
      | none => pure (item, after)
      | some more => items reg text bound owner more >>= fun found =>
        pure (item.merge found.1, found.2)) = readSiblings reg text bound owner item after := by
    intro item after
    unfold readSiblings
    cases eat? ',' after with
    | none => rfl
    | some more =>
      simp only
      cases items reg text bound owner more <;> rfl
  simp only
  split
  · rfl
  · cases relationTarget reg owner (.ofList name) with
    | error fault => rfl
    | ok target =>
      unfold readBelow
      simp only [bind, Except.bind]
      cases eat? '(' following with
      | none => exact hsiblings _ _
      | some inner =>
        simp only
        cases items reg text bound target inner with
        | error fault => rfl
        | ok below =>
          simp only
          cases eat? ')' below.2 with
          | none => rfl
          | some after => exact hsiblings _ _

theorem readBelow_eq_ok_iff :
    readBelow reg text bound target input = .ok (children, rest) ↔
      eat? '(' input = none ∧ children = empty ∧ rest = input ∨
        ∃ inner closing, eat? '(' input = some inner ∧
          items reg text bound target inner = .ok (children, closing) ∧
            eat? ')' closing = some rest := by
  unfold readBelow
  cases eat? '(' input with
  | none => simp [eq_comm]
  | some inner =>
    cases hinner : items reg text bound target inner with
    | error fault => simp [hinner]
    | ok below =>
      obtain ⟨found, closing⟩ := below
      cases hclosing : eat? ')' closing with
      | none => simp +contextual [hinner, hclosing]
      | some after => simp [hinner, hclosing, and_assoc]

theorem readSiblings_eq_ok_iff {item : FetchGraph} :
    readSiblings reg text bound owner item input = .ok (graph, rest) ↔
      eat? ',' input = none ∧ graph = item ∧ rest = input ∨
        ∃ more others, eat? ',' input = some more ∧
          items reg text bound owner more = .ok (others, rest) ∧ graph = item.merge others := by
  unfold readSiblings
  cases eat? ',' input with
  | none => simp [eq_comm]
  | some more =>
    cases hmore : items reg text bound owner more with
    | error fault => simp [hmore]
    | ok found =>
      obtain ⟨others, after⟩ := found
      simp only [hmore]
      constructor
      · intro h
        obtain ⟨rfl, rfl⟩ := Prod.mk.inj (Except.ok.inj h)
        exact .inr ⟨more, others, rfl, hmore, rfl⟩
      · intro h
        obtain ⟨hnone, -⟩ | ⟨again, found, hsome, hfound, rfl⟩ := h
        · cases hnone
        · obtain rfl := Option.some.inj hsome
          obtain ⟨rfl, rfl⟩ := Prod.mk.inj (Except.ok.inj (hmore.symm.trans hfound))
          rfl

/-- What a successful reading has found. -/
theorem items_eq_ok (h : items reg text (bound + 1) owner input = .ok (graph, rest)) :
    ∃ name target children after, (skipBlank input).takeWhile Text.isNameChar = name ∧
      name ≠ [] ∧ relationTarget reg owner (.ofList name) = .ok target ∧
      readBelow reg text bound target ((skipBlank input).dropWhile Text.isNameChar) =
        .ok (children, after) ∧
      readSiblings reg text bound owner (single (.ofList name) children) after =
        .ok (graph, rest) := by
  rw [items_succ] at h
  by_cases hname : (skipBlank input).takeWhile Text.isNameChar = []
  · rw [if_pos hname] at h
    cases h
  · rw [if_neg hname, bind_eq_ok_iff] at h
    obtain ⟨target, htarget, h⟩ := h
    obtain ⟨⟨children, after⟩, hbelow, hsiblings⟩ := bind_eq_ok_iff.1 h
    exact ⟨_, target, children, after, rfl, hname, htarget, hbelow, hsiblings⟩

/-- Reading goes on after an item with its siblings. -/
theorem items_eq_readSiblings {name : String} {after : List Char}
    (hname : (skipBlank input).takeWhile Text.isNameChar = name.toList) (hne : name.toList ≠ [])
    (htarget : relationTarget reg owner name = .ok target)
    (hbelow : readBelow reg text bound target ((skipBlank input).dropWhile Text.isNameChar) =
      .ok (children, after)) :
    items reg text (bound + 1) owner input =
      readSiblings reg text bound owner (single name children) after := by
  rw [items_succ, hname, if_neg hne, String.ofList_toList, htarget]
  show readBelow _ _ _ _ _ >>= _ = _
  rw [hbelow]
  rfl

/-! ### Legible graphs -/

/-- A name that can be read. -/
def IsName (name : String) : Prop := name.toList ≠ [] ∧ ∀ c ∈ name.toList, Text.isNameChar c

end FetchGraph

/-- Every name of the forest can be read, and is a relation of the entity reached that leads to an
entity of the model. -/
def Forest.Legible (reg : Registry) : Forest → Schema → Prop
  | nil, _ => True
  | node name below siblings, owner =>
    (FetchGraph.IsName name ∧ ∃ target, FetchGraph.relationTarget reg owner name = .ok target ∧
      below.Legible reg target) ∧ siblings.Legible reg owner

namespace Forest

theorem update_ne_nil (name : String) (f : Forest → Forest) (a : Forest) :
    a.update name f ≠ nil := by
  cases a with
  | nil => exact Forest.noConfusion
  | node n below siblings =>
    rw [update]
    split
    · exact Forest.noConfusion
    · split <;> exact Forest.noConfusion

theorem merge_ne_nil {a : Forest} (h : a ≠ nil) (b : Forest) : a.merge b ≠ nil := by
  induction b generalizing a with
  | nil => exact h
  | node name below siblings _ ih => exact ih (update_ne_nil name _ a)

end Forest

namespace Forest.Legible

variable {reg : Registry} {owner target : Schema} {name : String} {a b : Forest}

/-- A change below a name keeps a forest legible if it keeps what is below so. -/
theorem update {f : Forest → Forest} (h : a.Legible reg owner) (hname : FetchGraph.IsName name)
    (htarget : FetchGraph.relationTarget reg owner name = .ok target)
    (hf : ∀ below, below.Legible reg target → (f below).Legible reg target) :
    (a.update name f).Legible reg owner := by
  have hnew : (FetchGraph.IsName name ∧ ∃ target,
      FetchGraph.relationTarget reg owner name = .ok target ∧ (f nil).Legible reg target) :=
    ⟨hname, target, htarget, hf nil trivial⟩
  induction a with
  | nil => exact ⟨hnew, trivial⟩
  | node n below siblings _ ih =>
    obtain ⟨⟨hn, other, hother, hbelow⟩, hsiblings⟩ := h
    rw [Forest.update]
    split
    · exact ⟨hnew, ⟨hn, other, hother, hbelow⟩, hsiblings⟩
    · split
      · rename_i heq
        -- the name leads to one entity only
        obtain rfl : other = target := Except.ok.inj (hother.symm.trans (heq ▸ htarget))
        exact ⟨⟨hn, other, hother, hf below hbelow⟩, hsiblings⟩
      · exact ⟨⟨hn, other, hother, hbelow⟩, ih hsiblings⟩

theorem merge (ha : a.Legible reg owner) (hb : b.Legible reg owner) :
    (a.merge b).Legible reg owner := by
  induction b generalizing a owner with
  | nil => exact ha
  | node name below siblings ihBelow ihSiblings =>
    obtain ⟨⟨hname, target, htarget, hbelow⟩, hsiblings⟩ := hb
    exact ihSiblings (ha.update hname htarget fun own hown => ihBelow hown hbelow) hsiblings

end Forest.Legible

namespace FetchGraph

variable {reg : Registry} {owner target root : Schema} {text input rest : List Char} {bound : Nat}
variable {graph children : FetchGraph}

/-- **What is read is legible**, and it is not empty. -/
theorem legible_of_items (h : items reg text bound owner input = .ok (graph, rest)) :
    graph.forest.Legible reg owner ∧ graph.forest ≠ .nil := by
  induction bound generalizing owner input graph rest with
  | zero => cases h
  | succ bound ih =>
    obtain ⟨name, target, children, after, hname, hne, htarget, hbelow, hsiblings⟩ := items_eq_ok h
    have hread : IsName (.ofList name) := by
      rw [IsName, String.toList_ofList]
      exact ⟨hne, fun c hc => List.mem_takeWhile_imp (hname ▸ hc)⟩
    have hchildren : children.forest.Legible reg target := by
      obtain ⟨-, rfl, -⟩ | ⟨inner, closing, -, hinner, -⟩ := readBelow_eq_ok_iff.1 hbelow
      · trivial
      · exact (ih hinner).1
    have hitem : (single (.ofList name) children).forest.Legible reg owner :=
      ⟨⟨hread, target, htarget, hchildren⟩, trivial⟩
    obtain ⟨-, rfl, -⟩ | ⟨more, others, -, hmore, rfl⟩ := readSiblings_eq_ok_iff.1 hsiblings
    · exact ⟨hitem, Forest.noConfusion⟩
    · exact ⟨hitem.merge (ih hmore).1, Forest.merge_ne_nil Forest.noConfusion _⟩

theorem items_of_parse {written : String} (h : parse reg root written = .ok graph) :
    ∃ rest, items reg written.toList written.toList.length root written.toList =
      .ok (graph, rest) ∧ skipBlank rest = [] := by
  unfold parse at h
  simp only at h
  cases hitems : items reg written.toList written.toList.length root written.toList with
  | error fault => simp [hitems] at h
  | ok found =>
    obtain ⟨other, rest⟩ := found
    simp only [hitems] at h
    split at h
    · obtain rfl := Except.ok.inj h
      exact ⟨rest, rfl, ‹_›⟩
    · cases h

theorem legible_of_mergePaths {paths : List EmbeddedPath} {start : FetchGraph}
    (hstart : start.forest.Legible reg root) (h : mergePaths reg root start paths = .ok graph) :
    graph.forest.Legible reg root := by
  induction paths generalizing start with
  | nil => exact Except.ok.inj h ▸ hstart
  | cons path paths ih =>
    rw [mergePaths] at h
    cases hfurther : parse reg root path.graphText with
    | error error => simp [hfurther] at h
    | ok further =>
      simp only [hfurther] at h
      obtain ⟨rest, hitems, -⟩ := items_of_parse hfurther
      exact ih (hstart.merge (legible_of_items hitems).1) h

/-- The graphs that are made from texts for an entity: by reading a text, by reading a list of
chains, and by merging what was made so. -/
inductive Obtained (reg : Registry) (root : Schema) : FetchGraph → Prop
  | parsed {written : String} {graph : FetchGraph} (h : parse reg root written = .ok graph) :
      Obtained reg root graph
  | embedded {raw : String} {graph : FetchGraph} (h : ofEmbedded reg root raw = .ok graph) :
      Obtained reg root graph
  | merged {a b : FetchGraph} (ha : Obtained reg root a) (hb : Obtained reg root b) :
      Obtained reg root (a.merge b)

theorem Obtained.legible (h : Obtained reg root graph) : graph.forest.Legible reg root := by
  induction h with
  | parsed h =>
    obtain ⟨rest, hitems, -⟩ := items_of_parse h
    exact (legible_of_items hitems).1
  | embedded h =>
    have hempty : empty.forest.Legible reg root := trivial
    exact legible_of_mergePaths hempty h
  | merged _ _ iha ihb => exact iha.merge ihb

end FetchGraph

end QuerySieve
