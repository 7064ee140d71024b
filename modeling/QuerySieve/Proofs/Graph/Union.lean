import QuerySieve.Proofs.Graph.Chains

/-!
# QuerySieve.Proofs.Graph.Union

**Merging graphs is taking their union.**

A graph is the set of its chains and merging unites these sets, so every law of the union is a law
of merging, and a merge is the least graph that contains both sides. What lies below a chain is
merged too (`below?_merge`): an induction on the chain, over what is below one name
(`Forest.get?_merge`). So neither side loses anything, however deep.
-/

namespace QuerySieve

namespace Forest

variable {a b : Forest} {name other : String}

theorem mem_names_of_get? {below : Forest} (h : a.get? name = some below) : name ∈ a.names := by
  induction a with
  | nil => cases h
  | node n children siblings _ ih =>
    rw [get?] at h
    split at h
    · rename_i hname
      exact hname ▸ List.mem_cons_self
    · exact List.mem_cons_of_mem _ (ih h)

/-- A name is not there again among its later siblings. -/
theorem Ordered.get?_siblings {below siblings : Forest}
    (h : (node name below siblings).Ordered) : siblings.get? name = none := by
  rw [Option.eq_none_iff_forall_ne_some]
  intro children hchildren
  exact String.lt_irrefl name (h.lt_of_mem_names (mem_names_of_get? hchildren))

/-- What comes before the first name is not there. -/
theorem Ordered.get?_of_lt {below siblings : Forest} (h : (node name below siblings).Ordered)
    (hlt : other < name) : (node name below siblings).get? other = none := by
  rw [Option.eq_none_iff_forall_ne_some]
  intro children hchildren
  rcases List.mem_cons.1 (mem_names_of_get? hchildren) with rfl | hlater
  · exact String.lt_irrefl other hlt
  · exact String.lt_irrefl other (String.lt_trans hlt (h.lt_of_mem_names hlater))

/-- A change below a name is seen under that name and under no other. -/
theorem Ordered.get?_update (h : a.Ordered) (f : Forest → Forest) :
    (a.update name f).get? other =
      if other = name then some (f ((a.get? name).getD nil)) else a.get? other := by
  induction a with
  | nil => simp only [Forest.update, get?, Option.getD_none, eq_comm]
  | node n children siblings _ ih =>
    obtain ⟨-, -, hsiblings⟩ := ordered_node.1 h
    rw [Forest.update]
    split
    · rename_i hlt
      rw [h.get?_of_lt hlt, get?]
      simp only [eq_comm, Option.getD_none]
    · split
      · rename_i heq
        subst heq
        rw [get?, get?, if_pos rfl, get?]
        simp only [eq_comm, Option.getD_some]
        split <;> rfl
      · rename_i hne
        rw [get?, get?, get?, ih hsiblings, if_neg (Ne.symm hne)]
        split
        · rename_i hhere
          rw [if_neg (hhere ▸ Ne.symm hne)]
        · rfl

/-- **What a merge has below a name** is merged from what both sides have there. -/
theorem get?_merge (ha : a.Ordered) (hb : b.Ordered) :
    (a.merge b).get? name = Option.merge merge (a.get? name) (b.get? name) := by
  induction b generalizing a with
  | nil => cases h : a.get? name <;> simp [merge, get?, h]
  | node n below siblings _ ih =>
    obtain ⟨-, hbelow, hsiblings⟩ := ordered_node.1 hb
    have hupdated : (a.update n fun own => merge own below).Ordered :=
      ha.update fun own hown => hown.merge hbelow
    rw [merge, ih hupdated hsiblings, ha.get?_update, get?]
    by_cases hname : name = n
    · subst hname
      -- the later siblings add nothing below this name
      rw [if_pos rfl, if_pos rfl, hb.get?_siblings]
      have hnew : nil.merge below = below := merge_eq_append hbelow (by simp [names])
      cases a.get? name with
      | none => exact congrArg some hnew
      | some own => rfl
    · rw [if_neg hname, if_neg (Ne.symm hname)]

/-- A chain leads on through what is below its first name. -/
theorem Ordered.hasChain_cons {chain : List String} (h : a.Ordered) :
    a.HasChain (name :: chain) ↔ ∃ below, a.get? name = some below ∧ below.HasChain chain := by
  induction a with
  | nil => simp [get?]
  | node n children siblings _ ih =>
    obtain ⟨-, -, hsiblings⟩ := ordered_node.1 h
    rw [hasChain_node, ih hsiblings, get?]
    by_cases hname : n = name
    · subst hname
      rw [h.get?_siblings]
      simp
    · simp [hname, Ne.symm hname]

end Forest

namespace FetchGraph

variable {a b c graph : FetchGraph} {name : String} {chain : List String}

/-- What is to be loaded along a chain, if the chain is in the graph. -/
def below? (graph : FetchGraph) (chain : List String) : Option FetchGraph :=
  chain.foldlM get? graph

theorem below?_cons :
    graph.below? (name :: chain) = (graph.get? name).bind fun below => below.below? chain :=
  rfl

theorem get?_merge : (a.merge b).get? name = Option.merge merge (a.get? name) (b.get? name) := by
  have hinjective : Function.Injective (Option.map forest) :=
    Option.map_injective fun _ _ h => ext_forest h
  apply hinjective
  rw [map_forest_get?]
  show (a.forest.merge b.forest).get? name = _
  rw [Forest.get?_merge a.ordered b.ordered, ← map_forest_get?, ← map_forest_get?]
  cases a.get? name <;> cases b.get? name <;> rfl

/-- **Nothing is lost below a chain**: what either side has there is merged. -/
theorem below?_merge :
    (a.merge b).below? chain = Option.merge merge (a.below? chain) (b.below? chain) := by
  induction chain generalizing a b with
  | nil => rfl
  | cons name chain ih =>
    rw [below?_cons, below?_cons, below?_cons, get?_merge]
    cases a.get? name with
    | none => cases b.get? name <;> simp
    | some own =>
      cases b.get? name with
      | none => simp
      | some other => exact ih

/-- The chains are the ways down that can be gone. -/
theorem hasChain_iff_below? : graph.HasChain chain ↔ (graph.below? chain).isSome := by
  induction chain generalizing graph with
  | nil => exact iff_of_true (Forest.hasChain_nil_right _) rfl
  | cons name chain ih =>
    rw [HasChain, graph.ordered.hasChain_cons, ← map_forest_get?, below?_cons]
    cases graph.get? name with
    | none => simp
    | some below => simpa [HasChain] using ih

/-- A graph is contained in another if that leads along all its chains. -/
instance : HasSubset FetchGraph := ⟨fun a b => ∀ chain, a.HasChain chain → b.HasChain chain⟩

theorem subset_def : a ⊆ b ↔ ∀ chain, a.HasChain chain → b.HasChain chain := Iff.rfl

theorem hasChain_merge :
    (a.merge b).HasChain chain ↔ a.HasChain chain ∨ b.HasChain chain :=
  Forest.hasChain_merge

theorem not_hasChain_empty : ¬ empty.HasChain (name :: chain) := id

theorem subset_merge_left : a ⊆ a.merge b := fun _ h => hasChain_merge.2 (.inl h)

theorem subset_merge_right : b ⊆ a.merge b := fun _ h => hasChain_merge.2 (.inr h)

theorem merge_subset_iff : a.merge b ⊆ c ↔ a ⊆ c ∧ b ⊆ c := by
  simp only [subset_def, hasChain_merge, or_imp, forall_and]

theorem merge_comm (a b : FetchGraph) : a.merge b = b.merge a :=
  ext_chains fun chain => by rw [hasChain_merge, hasChain_merge, or_comm]

theorem merge_assoc (a b c : FetchGraph) : (a.merge b).merge c = a.merge (b.merge c) :=
  ext_chains fun chain => by simp only [hasChain_merge, or_assoc]

theorem merge_self (a : FetchGraph) : a.merge a = a :=
  ext_chains fun chain => by rw [hasChain_merge, or_self]

theorem merge_empty (a : FetchGraph) : a.merge empty = a := rfl

theorem empty_merge (a : FetchGraph) : empty.merge a = a := merge_comm empty a

theorem merge_subset_merge (h : a ⊆ b) : a.merge c ⊆ b.merge c ∧ c.merge a ⊆ c.merge b :=
  ⟨merge_subset_iff.2 ⟨fun chain ha => subset_merge_left chain (h chain ha), subset_merge_right⟩,
    merge_subset_iff.2 ⟨subset_merge_left, fun chain ha => subset_merge_right chain (h chain ha)⟩⟩

/-- **Merging is the union of graphs.** It is commutative, associative and idempotent, and the empty
graph is its unit. Its chains are those of either side, and the chains make the graph, so the merge
is the least graph that contains both sides, and a larger side makes a larger merge. Below every
chain the merge has what both sides have there, merged, or what the one side has that goes there. -/
theorem merge_is_union (a b c : FetchGraph) :
    a.merge b = b.merge a ∧ (a.merge b).merge c = a.merge (b.merge c) ∧ a.merge a = a ∧
      a.merge empty = a ∧ empty.merge a = a ∧
      (∀ chain, (a.merge b).HasChain chain ↔ a.HasChain chain ∨ b.HasChain chain) ∧
      (a = b ↔ ∀ chain, a.HasChain chain ↔ b.HasChain chain) ∧
      (a.merge b ⊆ c ↔ a ⊆ c ∧ b ⊆ c) ∧
      (a ⊆ b → a.merge c ⊆ b.merge c ∧ c.merge a ⊆ c.merge b) ∧
      ∀ chain, (a.HasChain chain ↔ (a.below? chain).isSome) ∧
        (a.merge b).below? chain = Option.merge merge (a.below? chain) (b.below? chain) := by
  refine ⟨merge_comm a b, merge_assoc a b c, merge_self a, merge_empty a, empty_merge a,
    fun chain => hasChain_merge, ⟨?_, ext_chains⟩, merge_subset_iff, merge_subset_merge,
    fun chain => ⟨hasChain_iff_below?, below?_merge⟩⟩
  rintro rfl chain
  exact Iff.rfl

/-- The orders of a customer. -/
def withOrders : FetchGraph := single "orders" empty

/-- The orders with their items. -/
def withItems : FetchGraph := single "orders" (single "items" empty)

/-- The team, and the orders with their customers. -/
def withUsers : FetchGraph := (single "team" empty).merge (single "orders" (single "user" empty))

/-- Both sides have something below the orders, and one side has a team. -/
theorem merge_is_union_of_orders :
    withOrders ⊆ withItems ∧ withOrders.merge withUsers ⊆ withItems.merge withUsers ∧
      withItems.merge withUsers = withUsers.merge withItems ∧
      (withItems.merge withUsers).text = "orders(items, user), team" ∧
      (withItems.merge withUsers).below? ["orders"] =
        some ((single "items" empty).merge (single "user" empty)) := by
  have hsubset : withOrders ⊆ withItems := by
    have hmerge : withOrders.merge withItems = withItems := by decide +kernel
    exact hmerge ▸ subset_merge_left
  obtain ⟨-, -, -, -, -, -, -, -, hmonotone, -⟩ := merge_is_union withOrders withItems withUsers
  obtain ⟨hcomm, -, -, -, -, -, -, -, -, hbelow⟩ := merge_is_union withItems withUsers withOrders
  exact ⟨hsubset, (hmonotone hsubset).1, hcomm, by decide +kernel,
    (hbelow ["orders"]).2.trans (by decide +kernel)⟩

end FetchGraph

end QuerySieve
