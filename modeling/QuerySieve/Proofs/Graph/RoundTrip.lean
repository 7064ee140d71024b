import QuerySieve.Proofs.Graph.Reading

/-!
# QuerySieve.Proofs.Graph.RoundTrip

**Graphs and their texts determine each other.**

Printing writes the names of a level in their order, and reading merges every item into what follows
it. So a text that was printed is put together from ascending pieces, and there merging is appending
(`Forest.merge_eq_append`). With that the parser reads a printed list back, up to the mark that ends
it (`FetchGraph.items_chars`): an induction over the forest, once for the children and once for the
siblings.

The converse holds for graphs that were made from texts only: a graph with a name that cannot be
read prints as a text that is refused.
-/

namespace QuerySieve

namespace Forest

/-! ### Merging what ascends -/

/-- One forest after the other. -/
def append : Forest → Forest → Forest
  | nil, b => b
  | node name below siblings, b => node name below (siblings.append b)

/-- The names at the first level. -/
def names : Forest → List String
  | nil => []
  | node name _ siblings => name :: siblings.names

@[simp] theorem names_append (a b : Forest) : (a.append b).names = a.names ++ b.names := by
  induction a with
  | nil => rfl
  | node name below siblings _ ih => exact congrArg (name :: ·) ih

theorem append_nil (a : Forest) : a.append nil = a := by
  induction a with
  | nil => rfl
  | node name below siblings _ ih => exact congrArg (node name below) ih

theorem append_assoc (a b c : Forest) : (a.append b).append c = a.append (b.append c) := by
  induction a with
  | nil => rfl
  | node name below siblings _ ih => exact congrArg (node name below) ih

theorem Ordered.lt_of_mem_names {name next : String} {below siblings : Forest}
    (h : (node name below siblings).Ordered) (hnext : next ∈ siblings.names) : name < next := by
  induction siblings generalizing name below with
  | nil => cases hnext
  | node first children rest _ ih =>
    obtain ⟨hfirst, -, hsiblings⟩ := ordered_node.1 h
    have hlt : name < first := hfirst first children rest rfl
    rcases List.mem_cons.1 hnext with rfl | hnext
    · exact hlt
    · exact String.lt_trans hlt (ih hsiblings hnext)

/-- A name beyond all others is added at the end. -/
theorem update_eq_append {name : String} (f : Forest → Forest) {a : Forest}
    (h : ∀ n ∈ a.names, n < name) : a.update name f = a.append (node name (f nil) nil) := by
  induction a with
  | nil => rfl
  | node n below siblings _ ih =>
    have hn : n < name := h n List.mem_cons_self
    have hnot : ¬ name < n := fun hlt => String.lt_irrefl n (String.lt_trans hn hlt)
    have hne : name ≠ n := fun heq => String.lt_irrefl n (heq ▸ hn)
    rw [update, if_neg hnot, if_neg hne, ih fun m hm => h m (List.mem_cons_of_mem _ hm)]
    rfl

/-- **Merging what comes later is appending it.** -/
theorem merge_eq_append {a b : Forest} (hb : b.Ordered)
    (h : ∀ n ∈ a.names, ∀ m ∈ b.names, n < m) : a.merge b = a.append b := by
  induction b generalizing a with
  | nil => exact (append_nil a).symm
  | node name below siblings ihBelow ihSiblings =>
    obtain ⟨-, hbelow, hsiblings⟩ := ordered_node.1 hb
    -- nothing is there below a new name, so what comes below it is appended to nothing
    have hnew : nil.merge below = below := ihBelow hbelow (by simp [names])
    have hlast : ∀ n ∈ a.names, n < name := fun n hn => h n hn name List.mem_cons_self
    have hrest : ∀ n ∈ (a.append (node name below nil)).names, ∀ m ∈ siblings.names, n < m := by
      intro n hn m hm
      rw [names_append] at hn
      rcases List.mem_append.1 hn with hn | hn
      · exact h n hn m (List.mem_cons_of_mem _ hm)
      · rw [List.mem_singleton.1 hn]
        exact hb.lt_of_mem_names hm
    rw [merge, update_eq_append _ hlast, hnew, ihSiblings hsiblings hrest, append_assoc]
    rfl

end Forest

namespace FetchGraph

variable {reg : Registry} {owner target root : Schema} {text input rest : List Char} {bound : Nat}

theorem ext_forest {a b : FetchGraph} (h : a.forest = b.forest) : a = b := by
  cases a
  cases b
  simpa using h

/-- An item merged with its later siblings. -/
theorem single_merge {name : String} {below siblings : Forest}
    (h : (Forest.node name below siblings).Ordered) (hbelow : below.Ordered)
    (hsiblings : siblings.Ordered) :
    (single name ⟨below, hbelow⟩).merge ⟨siblings, hsiblings⟩ = ⟨.node name below siblings, h⟩ := by
  refine ext_forest (Forest.merge_eq_append hsiblings ?_)
  intro n hn m hm
  rw [List.mem_singleton.1 hn]
  exact h.lt_of_mem_names hm

/-! ### Reading what was printed -/

/-- Blanks before a list are passed over. -/
theorem items_blank (cs : List Char) :
    items reg text bound owner (' ' :: cs) = items reg text bound owner cs := by
  have hskip : skipBlank (' ' :: cs) = skipBlank cs := rfl
  cases bound with
  | zero => simp only [items, nameExpected, hskip]
  | succ bound => simp only [items_succ, nameExpected, hskip]

/-- The characters that may stand after a name or a list. -/
def IsMark (c : Char) : Prop := c = '(' ∨ c = ')' ∨ c = ','

theorem IsMark.isNameChar {c : Char} (h : IsMark c) : Text.isNameChar c = false := by
  rcases h with rfl | rfl | rfl <;> decide

theorem IsMark.eat? {mark c : Char} (h : IsMark c) (cs : List Char) :
    eat? mark (c :: cs) = if c = mark then some cs else none := by
  have hblank : Text.isBlank c = false := by rcases h with rfl | rfl | rfl <;> decide
  simp [FetchGraph.eat?, skipBlank, hblank]

/-- A name is read up to what is no character of a name. -/
theorem IsName.span {name : String} (h : IsName name) {tail : List Char}
    (htail : ∀ c ∈ tail.head?, Text.isNameChar c = false) :
    skipBlank (name.toList ++ tail) = name.toList ++ tail ∧
      (name.toList ++ tail).takeWhile Text.isNameChar = name.toList ∧
      (name.toList ++ tail).dropWhile Text.isNameChar = tail := by
  obtain ⟨hne, hall⟩ := h
  have hstop : tail.takeWhile Text.isNameChar = [] ∧ tail.dropWhile Text.isNameChar = tail := by
    cases tail with
    | nil => exact ⟨rfl, rfl⟩
    | cons c cs => simp [htail c rfl]
  refine ⟨?_, ?_, ?_⟩
  · cases hname : name.toList with
    | nil => exact absurd hname hne
    | cons c cs =>
      have hblank : Text.isBlank c = false := by
        have hc : Text.isNameChar c := hall c (hname ▸ List.mem_cons_self)
        rw [Bool.eq_false_iff]
        intro hblank
        rw [Text.isNameChar_eq_false_of_isBlank hblank] at hc
        cases hc
      simp [skipBlank, hblank]
  · rw [List.takeWhile_append_of_pos hall, hstop.1, List.append_nil]
  · rw [List.dropWhile_append_of_pos hall, hstop.2]

/-- What is printed after a name for the forest below it. -/
def charsBelow : Forest → List Char
  | .nil => []
  | below => '(' :: below.chars ++ [')']

/-- What is printed after an item for the siblings that follow. -/
def charsSiblings : Forest → List Char
  | .nil => []
  | siblings => ',' :: ' ' :: siblings.chars

theorem chars_node (name : String) (below siblings : Forest) :
    (Forest.node name below siblings).chars =
      name.toList ++ (charsBelow below ++ charsSiblings siblings) := by
  rw [← List.append_assoc]
  cases below <;> cases siblings <;> rfl

theorem charsBelow_of_ne_nil {below : Forest} (h : below ≠ .nil) :
    charsBelow below = '(' :: (below.chars ++ [')']) := by
  cases below with
  | nil => exact absurd rfl h
  | node name children others => rfl

theorem charsSiblings_of_ne_nil {siblings : Forest} (h : siblings ≠ .nil) :
    charsSiblings siblings = ',' :: ' ' :: siblings.chars := by
  cases siblings with
  | nil => exact absurd rfl h
  | node name children others => rfl

/-- A list ends with the text or before a closing parenthesis. -/
def EndsList (tail : List Char) : Prop := ∀ c cs, tail = c :: cs → c = ')'

theorem EndsList.eat? {tail : List Char} (h : EndsList tail) {mark : Char} (hmark : mark ≠ ')') :
    eat? mark tail = none := by
  cases tail with
  | nil => rfl
  | cons c cs =>
    have hc : c = ')' := h c cs rfl
    rw [IsMark.eat? (.inr (.inl hc)), if_neg (hc ▸ Ne.symm hmark)]

/-- What is printed after a name starts with a mark. -/
theorem EndsList.isMark_head {tail : List Char} (h : EndsList tail) (below siblings : Forest) :
    ∀ c ∈ (charsBelow below ++ (charsSiblings siblings ++ tail)).head?, IsMark c := by
  intro c hc
  obtain ⟨cs, heq⟩ := List.head?_eq_some_iff.1 hc
  by_cases hbelow : below = .nil
  · by_cases hsiblings : siblings = .nil
    · subst hbelow hsiblings
      exact .inr (.inl (h c cs heq))
    · rw [hbelow, charsSiblings_of_ne_nil hsiblings] at heq
      exact .inr (.inr (List.cons.inj heq).1.symm)
  · rw [charsBelow_of_ne_nil hbelow] at heq
    exact .inl (List.cons.inj heq).1.symm

theorem readBelow_charsBelow {below siblings : Forest} {tail : List Char} (htail : EndsList tail)
    (hordered : below.Ordered)
    (hitems : below ≠ .nil → ∀ rest, items reg text bound target (below.chars ++ ')' :: rest) =
      .ok (⟨below, hordered⟩, ')' :: rest)) :
    readBelow reg text bound target (charsBelow below ++ (charsSiblings siblings ++ tail)) =
      .ok (⟨below, hordered⟩, charsSiblings siblings ++ tail) := by
  rw [readBelow_eq_ok_iff]
  by_cases hbelow : below = .nil
  · subst hbelow
    refine .inl ⟨?_, rfl, rfl⟩
    by_cases hsiblings : siblings = .nil
    · rw [hsiblings]
      exact htail.eat? (by decide)
    · rw [charsSiblings_of_ne_nil hsiblings]
      exact IsMark.eat? (.inr (.inr rfl)) _
  · rw [charsBelow_of_ne_nil hbelow, List.cons_append, List.append_assoc]
    exact .inr ⟨_, _, IsMark.eat? (.inl rfl) _, hitems hbelow _, IsMark.eat? (.inr (.inl rfl)) _⟩

theorem readSiblings_charsSiblings {name : String} {below siblings : Forest} {tail : List Char}
    (htail : EndsList tail) (hordered : (Forest.node name below siblings).Ordered)
    (hbelow : below.Ordered) (hsiblings : siblings.Ordered)
    (hitems : siblings ≠ .nil → items reg text bound owner (siblings.chars ++ tail) =
      .ok (⟨siblings, hsiblings⟩, tail)) :
    readSiblings reg text bound owner (single name ⟨below, hbelow⟩)
      (charsSiblings siblings ++ tail) = .ok (⟨.node name below siblings, hordered⟩, tail) := by
  rw [readSiblings_eq_ok_iff]
  by_cases hnil : siblings = .nil
  · subst hnil
    exact .inl ⟨htail.eat? (by decide), rfl, rfl⟩
  · rw [charsSiblings_of_ne_nil hnil]
    refine .inr ⟨_, ⟨siblings, hsiblings⟩, IsMark.eat? (.inr (.inr rfl)) _, ?_,
      (single_merge hordered hbelow hsiblings).symm⟩
    exact (items_blank _).trans (hitems hnil)

/-- **A printed list is read back**, up to what ends it. -/
theorem items_chars {forest : Forest} (hlegible : forest.Legible reg owner)
    (hordered : forest.Ordered) (hne : forest ≠ .nil) {tail : List Char} (htail : EndsList tail)
    (hbound : forest.chars.length ≤ bound) :
    items reg text bound owner (forest.chars ++ tail) = .ok (⟨forest, hordered⟩, tail) := by
  induction forest generalizing owner bound tail with
  | nil => exact absurd rfl hne
  | node name below siblings ihBelow ihSiblings =>
    obtain ⟨⟨hname, target, htarget, hbelow⟩, hsiblings⟩ := hlegible
    obtain ⟨-, hbelowOrdered, hsiblingsOrdered⟩ := Forest.ordered_node.1 hordered
    have hlength : 0 < name.toList.length := List.length_pos_iff.2 hname.1
    rw [chars_node, List.length_append, List.length_append] at hbound
    obtain ⟨bound, rfl⟩ : ∃ before, bound = before + 1 := ⟨bound - 1, by omega⟩
    have hread : readBelow reg text bound target
        (charsBelow below ++ (charsSiblings siblings ++ tail)) =
          .ok (⟨below, hbelowOrdered⟩, charsSiblings siblings ++ tail) := by
      refine readBelow_charsBelow htail hbelowOrdered fun hne rest => ?_
      refine ihBelow hbelow hbelowOrdered hne (fun c cs h => (List.cons.inj h).1.symm) ?_
      rw [charsBelow_of_ne_nil hne, List.length_cons, List.length_append] at hbound
      omega
    have hrest : readSiblings reg text bound owner (single name ⟨below, hbelowOrdered⟩)
        (charsSiblings siblings ++ tail) =
          .ok (⟨.node name below siblings, hordered⟩, tail) := by
      refine readSiblings_charsSiblings htail hordered hbelowOrdered hsiblingsOrdered fun hne => ?_
      refine ihSiblings hsiblings hsiblingsOrdered hne htail ?_
      rw [charsSiblings_of_ne_nil hne, List.length_cons, List.length_cons] at hbound
      omega
    obtain ⟨hskip, htake, hdrop⟩ :=
      hname.span fun c hc => (htail.isMark_head below siblings c hc).isNameChar
    rw [← hdrop] at hread
    rw [chars_node, List.append_assoc, List.append_assoc,
      items_eq_readSiblings (hskip.symm ▸ htake) hname.1 htarget (hskip.symm ▸ hread)]
    exact hrest

/-! ### Whole texts -/

theorem parse_text (graph : FetchGraph) (hlegible : graph.forest.Legible reg root)
    (hne : graph ≠ empty) : parse reg root graph.text = .ok graph := by
  have hforest : graph.forest ≠ .nil := fun h => hne (ext_forest h)
  have hends : EndsList [] := fun c cs h => by cases h
  have hread : items reg graph.forest.chars graph.forest.chars.length root
      (graph.forest.chars ++ []) = .ok (graph, []) :=
    items_chars hlegible graph.ordered hforest hends (Nat.le_refl _)
  rw [List.append_nil] at hread
  unfold parse text
  simp only [String.toList_ofList, hread]
  rfl

/-- The empty text is refused. -/
theorem parse_empty (reg : Registry) (root : Schema) :
    ∃ error, parse reg root "" = .error error := ⟨_, rfl⟩

/-- **Graphs and their texts determine each other.** A graph made from texts, if it is not empty, is
what its text is read as; two such graphs have one text only if they are equal; and the text of a
graph that was read is read as a graph with the same text. -/
theorem text_round_trip (reg : Registry) (root : Schema) :
    (∀ graph, Obtained reg root graph → graph ≠ empty → parse reg root graph.text = .ok graph) ∧
      (∀ a b, Obtained reg root a → Obtained reg root b → (a.text = b.text ↔ a = b)) ∧
      ∀ written graph, parse reg root written = .ok graph →
        (parse reg root graph.text).map FetchGraph.text = .ok graph.text := by
  have hback : ∀ graph, Obtained reg root graph → graph ≠ empty →
      parse reg root graph.text = .ok graph :=
    fun graph hgraph hne => parse_text graph hgraph.legible hne
  obtain ⟨refusal, hempty⟩ := parse_empty reg root
  have hnonempty : ∀ graph, Obtained reg root graph → graph ≠ empty → graph.text ≠ "" := by
    intro graph hgraph hne heq
    have hread := hback graph hgraph hne
    rw [heq, hempty] at hread
    cases hread
  refine ⟨hback, fun a b ha hb => ⟨fun htext => ?_, fun h => congrArg _ h⟩, ?_⟩
  · by_cases hane : a = empty
    · subst hane
      by_contra hne
      exact hnonempty b hb (Ne.symm hne) htext.symm
    · by_cases hbne : b = empty
      · subst hbne
        exact absurd htext (hnonempty a ha hane)
      · have hread := hback a ha hane
        rw [htext, hback b hb hbne] at hread
        exact (Except.ok.inj hread).symm
  · intro written graph hread
    obtain ⟨rest, hitems, -⟩ := items_of_parse hread
    have hne : graph ≠ empty := fun h => (legible_of_items hitems).2 (congrArg forest h)
    rw [hback graph (.parsed hread) hne]
    rfl

/-- The rows of a tree, each with its parent and its children. -/
def treeRows : Schema :=
  (Schema.new "row" "rows").toOne "parent" "row" "parent_id" "id"
    |>.toMany "children" "row" "id" "parent_id"

/-- The parent of a row with its children, and its children with their parent. -/
def bothWays : FetchGraph :=
  (single "parent" (single "children" empty)).merge (single "children" (single "parent" empty))

/-- What was read is merged with what comes of a list of chains. Printing puts the names in order,
and what was written twice is there once. -/
theorem text_round_trip_of_both_ways :
    parse (.ofList [treeRows]) treeRows " parent( children ),children(parent,parent),parent" =
        .ok bothWays ∧
      ∃ embedded, ofEmbedded (.ofList [treeRows]) treeRows "children.children,parent" =
          .ok embedded ∧
        (bothWays.merge embedded).text = "children(children, parent), parent(children)" ∧
        parse (.ofList [treeRows]) treeRows (bothWays.merge embedded).text =
          .ok (bothWays.merge embedded) ∧
        bothWays.text ≠ (bothWays.merge embedded).text ∧
        (parse (.ofList [treeRows]) treeRows bothWays.text).map FetchGraph.text =
          .ok bothWays.text := by
  have hwritten : parse (.ofList [treeRows]) treeRows
      " parent( children ),children(parent,parent),parent" = .ok bothWays := by decide +kernel
  have hembedded : ofEmbedded (.ofList [treeRows]) treeRows "children.children,parent" =
      .ok ((single "children" (single "children" empty)).merge (single "parent" empty)) := by
    decide +kernel
  obtain ⟨hback, hsame, hagain⟩ := text_round_trip (.ofList [treeRows]) treeRows
  have hread := Obtained.parsed hwritten
  have hmerged := hread.merged (.embedded hembedded)
  exact ⟨hwritten, _, hembedded, by decide +kernel, hback _ hmerged (by decide +kernel),
    mt (hsame _ _ hread hmerged).1 (by decide +kernel), hagain _ _ hwritten⟩

end FetchGraph

end QuerySieve
