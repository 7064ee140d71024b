import QuerySieve.Proofs.Graph.RoundTrip

/-!
# QuerySieve.Proofs.Graph.Chains

**A graph is the set of its chains.**

A chain of names leads down through a forest, from a name of the first level to one below it and so
on. Merging is the union of what both forests lead along (`Forest.hasChain_merge`), and as the names
of a graph are in order at every level, its chains determine it (`FetchGraph.ext_chains`).
-/

namespace QuerySieve

namespace Forest

/-- The names lead down through the forest. -/
def HasChain : Forest → List String → Prop
  | _, [] => True
  | nil, _ :: _ => False
  | node name below siblings, first :: rest =>
    (first = name ∧ below.HasChain rest) ∨ siblings.HasChain (first :: rest)

variable {a b : Forest} {name first : String} {chain : List String}

@[simp] theorem hasChain_nil_right (a : Forest) : a.HasChain [] := by
  cases a <;> trivial

@[simp] theorem not_hasChain_nil : ¬ nil.HasChain (first :: chain) := id

@[simp] theorem hasChain_node {below siblings : Forest} :
    (node name below siblings).HasChain (first :: chain) ↔
      (first = name ∧ below.HasChain chain) ∨ siblings.HasChain (first :: chain) :=
  Iff.rfl

theorem mem_names_of_hasChain (h : a.HasChain (first :: chain)) : first ∈ a.names := by
  induction a with
  | nil => exact h.elim
  | node name below siblings _ ih =>
    obtain ⟨rfl, -⟩ | hsiblings := hasChain_node.1 h
    · exact List.mem_cons_self
    · exact List.mem_cons_of_mem _ (ih hsiblings)

/-! ### Unions -/

/-- A change that adds something below a name adds the chains through it. -/
theorem hasChain_update {f : Forest → Forest} {added : Forest}
    (hf : ∀ own chain, (f own).HasChain chain ↔ own.HasChain chain ∨ added.HasChain chain) :
    (a.update name f).HasChain (first :: chain) ↔
      a.HasChain (first :: chain) ∨ (first = name ∧ added.HasChain chain) := by
  -- below a new name there was nothing, and the empty chain leads through nothing
  have hnew : (f nil).HasChain chain ↔ added.HasChain chain := by
    rw [hf nil chain]
    cases chain <;> simp
  induction a with
  | nil => simp [update, hnew]
  | node n below siblings _ ih =>
    rw [update]
    split
    · rw [hasChain_node, hnew, or_comm]
    · split
      · rename_i heq
        rw [hasChain_node, hf below chain, heq, and_or_left, or_right_comm, ← hasChain_node]
      · simp only [hasChain_node, ih, or_assoc]

/-- **Merging is union.** -/
theorem hasChain_merge : (a.merge b).HasChain chain ↔ a.HasChain chain ∨ b.HasChain chain := by
  induction b generalizing a chain with
  | nil => cases chain <;> simp [merge]
  | node name below siblings ihBelow ihSiblings =>
    cases chain with
    | nil => simp
    | cons first chain =>
      have hbelow : ∀ (own : Forest) (chain : List String), (own.merge below).HasChain chain ↔
          own.HasChain chain ∨ below.HasChain chain := fun _ _ => ihBelow
      rw [merge, ihSiblings, hasChain_update hbelow, hasChain_node, or_assoc]

theorem hasChain_append : (a.append b).HasChain chain ↔ a.HasChain chain ∨ b.HasChain chain := by
  cases chain with
  | nil => simp
  | cons first chain =>
    induction a with
    | nil => simp [append]
    | node name below siblings _ ih => simp only [append, hasChain_node, ih, or_assoc]

/-! ### Chains determine a graph -/

theorem Ordered.lt_of_hasChain {below siblings : Forest} (h : (node name below siblings).Ordered)
    (hchain : siblings.HasChain (first :: chain)) : name < first :=
  h.lt_of_mem_names (mem_names_of_hasChain hchain)

/-- Through the first name lead the chains below it, and no others. -/
theorem Ordered.hasChain_first {below siblings : Forest} (h : (node name below siblings).Ordered) :
    (node name below siblings).HasChain (name :: chain) ↔ below.HasChain chain := by
  rw [hasChain_node]
  constructor
  · intro hchain
    obtain ⟨-, hbelow⟩ | hsiblings := hchain
    · exact hbelow
    · exact absurd (h.lt_of_hasChain hsiblings) (String.lt_irrefl name)
  · exact fun hbelow => .inl ⟨rfl, hbelow⟩

theorem Ordered.hasChain_siblings {below siblings : Forest}
    (h : (node name below siblings).Ordered) :
    siblings.HasChain (first :: chain) ↔
      first ≠ name ∧ (node name below siblings).HasChain (first :: chain) := by
  rw [hasChain_node]
  constructor
  · intro hsiblings
    refine ⟨?_, .inr hsiblings⟩
    rintro rfl
    exact String.lt_irrefl first (h.lt_of_hasChain hsiblings)
  · intro hchain
    obtain ⟨hne, ⟨heq, -⟩ | hsiblings⟩ := hchain
    · exact absurd heq hne
    · exact hsiblings

/-- Forests in order with the same chains have the same first name. -/
theorem Ordered.first_eq {n m : String} {below siblings below' siblings' : Forest}
    (ha : (node n below siblings).Ordered) (hb : (node m below' siblings').Ordered)
    (h : ∀ chain, (node n below siblings).HasChain chain ↔
      (node m below' siblings').HasChain chain) : n = m := by
  have hn : (node m below' siblings').HasChain [n] := (h [n]).1 (.inl ⟨rfl, hasChain_nil_right _⟩)
  have hm : (node n below siblings).HasChain [m] := (h [m]).2 (.inl ⟨rfl, hasChain_nil_right _⟩)
  obtain ⟨heq, -⟩ | hafter := hasChain_node.1 hn
  · exact heq
  · obtain ⟨heq, -⟩ | hbefore := hasChain_node.1 hm
    · exact heq.symm
    · -- each name would come after the other
      exact absurd (String.lt_trans (ha.lt_of_hasChain hbefore) (hb.lt_of_hasChain hafter))
        (String.lt_irrefl n)

theorem Ordered.ext_chains (ha : a.Ordered) (hb : b.Ordered)
    (h : ∀ chain, a.HasChain chain ↔ b.HasChain chain) : a = b := by
  induction a generalizing b with
  | nil =>
    cases b with
    | nil => rfl
    | node m below siblings => exact ((h [m]).2 (.inl ⟨rfl, hasChain_nil_right _⟩)).elim
  | node n below siblings ihBelow ihSiblings =>
    cases b with
    | nil => exact ((h [n]).1 (.inl ⟨rfl, hasChain_nil_right _⟩)).elim
    | node m below' siblings' =>
      obtain rfl := ha.first_eq hb h
      obtain ⟨-, hbelow, hsiblings⟩ := ordered_node.1 ha
      obtain ⟨-, hbelow', hsiblings'⟩ := ordered_node.1 hb
      have hsameBelow : below = below' := by
        refine ihBelow hbelow hbelow' fun chain => ?_
        rw [← ha.hasChain_first, h, hb.hasChain_first]
      have hsameSiblings : siblings = siblings' := by
        refine ihSiblings hsiblings hsiblings' fun chain => ?_
        cases chain with
        | nil => simp
        | cons first chain => rw [ha.hasChain_siblings, h, ← hb.hasChain_siblings]
      rw [hsameBelow, hsameSiblings]

end Forest

namespace FetchGraph

/-- The relations lead on from the rows, one after the other. -/
def HasChain (graph : FetchGraph) (chain : List String) : Prop := graph.forest.HasChain chain

/-- **A graph is determined by its chains.** -/
theorem ext_chains {a b : FetchGraph} (h : ∀ chain, a.HasChain chain ↔ b.HasChain chain) : a = b :=
  ext_forest (a.ordered.ext_chains b.ordered h)

end FetchGraph

end QuerySieve
