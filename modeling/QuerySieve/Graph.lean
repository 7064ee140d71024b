/-!
# QuerySieve.Graph

Which relations are to be loaded along with the rows, and from the rows that these lead to, which
again.

A `FetchGraph` is a tree of relation names. Its names ascend at every level and none is there twice,
so that there is one graph for each set of relation chains. `merge` is the union.
-/

namespace QuerySieve

/-- A row of siblings, each a relation name with a row of children. -/
inductive Forest
  | nil
  | node (name : String) (children siblings : Forest)
  deriving DecidableEq, Repr, Inhabited

namespace Forest

/-- Names ascend along siblings, at every level. -/
def Ordered : Forest → Prop
  | nil => True
  | node name children siblings =>
    (match siblings with
      | nil => True
      | node next _ _ => name < next) ∧ children.Ordered ∧ siblings.Ordered

/-- The children of a name among the siblings. -/
def get? (name : String) : Forest → Option Forest
  | nil => none
  | node n children siblings => if n = name then some children else siblings.get? name

/-- The number of siblings. -/
def length : Forest → Nat
  | nil => 0
  | node _ _ siblings => siblings.length + 1

/-- The siblings' names with their children. -/
def toList : Forest → List (String × Forest)
  | nil => []
  | node name children siblings => (name, children) :: siblings.toList

/-- Changes the children of a name, which are none if the name is new. -/
def update (name : String) (f : Forest → Forest) : Forest → Forest
  | nil => node name (f nil) nil
  | node n children siblings =>
    if name < n then node name (f nil) (node n children siblings)
    else if name = n then node n (f children) siblings
    else node n children (siblings.update name f)

/-- The union of two forests. -/
def merge : Forest → Forest → Forest
  | a, nil => a
  | a, node name children siblings =>
    merge (a.update name fun own => merge own children) siblings

/-- The names with their children in parentheses, siblings separated by commas. -/
def chars : Forest → List Char
  | nil => []
  | node name children siblings =>
    name.toList
      ++ (match children with
        | nil => []
        | _ => '(' :: children.chars ++ [')'])
      ++ (match siblings with
        | nil => []
        | _ => ',' :: ' ' :: siblings.chars)

theorem ordered_node {name : String} {children siblings : Forest} :
    (node name children siblings).Ordered ↔
      (∀ next c s, siblings = node next c s → name < next) ∧ children.Ordered
        ∧ siblings.Ordered := by
  cases siblings with
  | nil => simp [Ordered]
  | node next c s =>
    simp only [Ordered, node.injEq]
    constructor
    · rintro ⟨h, hc, hs⟩
      exact ⟨fun _ _ _ e => e.1 ▸ h, hc, hs⟩
    · rintro ⟨h, hc, hs⟩
      exact ⟨h next c s ⟨rfl, rfl, rfl⟩, hc, hs⟩

/-- The first name of an updated forest is the new one or the one that was first. -/
theorem head_update {name : String} {f : Forest → Forest} {a : Forest} {next : String}
    {c s : Forest} (h : a.update name f = node next c s) :
    next = name ∨ ∃ c' s', a = node next c' s' := by
  cases a with
  | nil =>
    simp only [update, node.injEq] at h
    exact .inl h.1.symm
  | node n children siblings =>
    rw [update] at h
    split at h
    · exact .inl (node.inj h).1.symm
    · split at h
      · exact .inr ⟨children, siblings, by rw [(node.inj h).1]⟩
      · exact .inr ⟨children, siblings, by rw [(node.inj h).1]⟩

theorem Ordered.update {name : String} {f : Forest → Forest} (hf : ∀ x, x.Ordered → (f x).Ordered)
    {a : Forest} (h : a.Ordered) : (a.update name f).Ordered := by
  induction a with
  | nil => exact ordered_node.2 ⟨by simp, hf nil trivial, trivial⟩
  | node n children siblings _ ih =>
    obtain ⟨hhead, hc, hs⟩ := ordered_node.1 h
    rw [Forest.update]
    split
    · rename_i hlt
      refine ordered_node.2 ⟨fun next c s e => ?_, hf nil trivial, h⟩
      obtain ⟨rfl, -, -⟩ := node.inj e
      exact hlt
    · split
      · exact ordered_node.2 ⟨hhead, hf _ hc, hs⟩
      · rename_i hnlt hne
        refine ordered_node.2 ⟨fun next c s e => ?_, hc, ih hs⟩
        rcases head_update e with rfl | ⟨c', s', e'⟩
        · rcases Std.lt_trichotomy next n with h | h | h
          · exact absurd h hnlt
          · exact absurd h hne
          · exact h
        · exact hhead next c' s' e'

theorem Ordered.merge {a b : Forest} (ha : a.Ordered) (hb : b.Ordered) :
    (a.merge b).Ordered := by
  induction b generalizing a with
  | nil => exact ha
  | node name children siblings ihc ihs =>
    obtain ⟨-, hc, hs⟩ := ordered_node.1 hb
    exact ihs (ha.update fun x hx => ihc hx hc) hs

end Forest

/-- The relations to load, as a tree of names in order. -/
structure FetchGraph where
  forest : Forest
  ordered : forest.Ordered
  deriving DecidableEq

namespace FetchGraph

/-- Nothing to load. -/
def empty : FetchGraph := ⟨.nil, trivial⟩

instance : Inhabited FetchGraph := ⟨empty⟩

/-- Is there nothing to load? -/
def isEmpty (g : FetchGraph) : Bool := g.forest = .nil

/-- The number of relations to load from the rows themselves. -/
def size (g : FetchGraph) : Nat := g.forest.length

/-- One relation, with what is to be loaded from its rows. -/
def single (name : String) (children : FetchGraph) : FetchGraph :=
  ⟨.node name children.forest .nil, Forest.ordered_node.2 ⟨by simp, children.ordered, trivial⟩⟩

/-- All that either graph loads. -/
def merge (a b : FetchGraph) : FetchGraph := ⟨a.forest.merge b.forest, a.ordered.merge b.ordered⟩

theorem ordered_of_get? {name : String} {f child : Forest} (h : f.Ordered)
    (hg : f.get? name = some child) : child.Ordered := by
  induction f with
  | nil => simp [Forest.get?] at hg
  | node n children siblings _ ih =>
    obtain ⟨-, hc, hs⟩ := Forest.ordered_node.1 h
    rw [Forest.get?] at hg
    split at hg
    · exact Option.some.inj hg ▸ hc
    · exact ih hs hg

/-- What is to be loaded from the rows of a relation, if the relation is to be loaded. -/
def get? (g : FetchGraph) (name : String) : Option FetchGraph :=
  match h : g.forest.get? name with
  | some child => some ⟨child, ordered_of_get? g.ordered h⟩
  | none => none

theorem map_forest_get? (g : FetchGraph) (name : String) :
    (g.get? name).map forest = g.forest.get? name := by
  unfold get?
  split
  · rename_i child h
    exact h.symm
  · rename_i h
    exact h.symm

/-- The graph as text, in the form that parsing reads. -/
def text (g : FetchGraph) : String := .ofList g.forest.chars

end FetchGraph

end QuerySieve
