import QuerySieve.Proofs.Graph.Grammar
import QuerySieve.Proofs.Graph.Union
import QuerySieve.Proofs.Text

/-!
# QuerySieve.Proofs.Graph.Entries

**The entries of a request are united.**

A chain is its own graph (`ofChain`), and the text that an entry is folded into is that graph's text
(`text_ofChain`), so it is read back as the graph (`parse_graphText`). What the entries give is then
merged, and merging is union (`hasChain_foldl_merge`). Cutting and trimming come before that: a text
that lists chains with white space and blank entries anywhere among them is taken apart into these
chains (`Lists.filterMap_split`).
-/

namespace QuerySieve

/-- The names are relations, each of the entity that the names before it lead to, and lead from one
entity to another. -/
inductive Registry.Reaches (reg : Registry) : Schema → List String → Schema → Prop
  | here (owner : Schema) : Reaches reg owner [] owner
  | along {owner next reached : Schema} {name : String} {chain : List String} {relation : Relation}
      (hrelation : owner.relationAt? name = some relation)
      (htarget : reg.entities.get? relation.target = some next)
      (hrest : Reaches reg next chain reached) : Reaches reg owner (name :: chain) reached

/-! ### The text of a chain -/

namespace EmbeddedPath

variable {path : EmbeddedPath} {name : String}

theorem graphText_cons_of_ne (h : graphText path ≠ "") :
    graphText (name :: path) = name ++ "(" ++ graphText path ++ ")" :=
  if_neg h

theorem graphText_cons_of_eq (h : graphText path = "") : graphText (name :: path) = name :=
  if_pos h

theorem graphText_eq_empty_iff : graphText path = "" ↔ ∀ name ∈ path, name = "" := by
  induction path with
  | nil => exact iff_of_true rfl (by simp)
  | cons name path ih =>
    rw [List.forall_mem_cons, ← ih]
    by_cases h : graphText path = ""
    · rw [graphText_cons_of_eq h, and_iff_left h]
    · rw [graphText_cons_of_ne h]
      exact iff_of_false (by simp [String.append_eq_empty_iff]) fun hall => h hall.2

end EmbeddedPath

namespace FetchGraph

variable {reg : Registry} {owner root reached : Schema} {start graph : FetchGraph} {name : String}
variable {chain path : List String} {paths more : List EmbeddedPath} {parts : List FetchGraph}

/-- The graph of one chain. -/
def ofChain : List String → FetchGraph
  | [] => empty
  | name :: chain => single name (ofChain chain)

theorem hasChain_ofChain : (ofChain chain).HasChain path ↔ path <+: chain := by
  induction chain generalizing path with
  | nil => cases path <;> simp [ofChain, empty, HasChain]
  | cons name chain ih =>
    cases path with
    | nil => exact iff_of_true (Forest.hasChain_nil_right _) List.nil_prefix
    | cons first path =>
      rw [List.cons_prefix_cons, ← ih]
      exact Forest.hasChain_node.trans (or_iff_left id)

theorem forest_ofChain_ne_nil (h : chain ≠ []) : (ofChain chain).forest ≠ .nil := by
  cases chain with
  | nil => exact absurd rfl h
  | cons name chain => exact Forest.noConfusion

theorem legible_ofChain (hnames : ∀ name ∈ chain, IsName name)
    (h : reg.Reaches owner chain reached) : (ofChain chain).forest.Legible reg owner := by
  induction h with
  | here owner => trivial
  | along hrelation htarget _ ih =>
    obtain ⟨hname, hrest⟩ := List.forall_mem_cons.1 hnames
    exact ⟨⟨hname, _, relationTarget_eq_ok_iff.2 ⟨_, hrelation, htarget⟩, ih hrest⟩, trivial⟩

theorem IsName.ne_empty (h : IsName name) : name ≠ "" := by
  rintro rfl
  exact h.1 rfl

/-- A chain folded is the text of its graph. -/
theorem text_ofChain (hnames : ∀ name ∈ chain, name ≠ "") :
    (ofChain chain).text = EmbeddedPath.graphText chain := by
  induction chain with
  | nil => rfl
  | cons name chain ih =>
    obtain ⟨hname, hrest⟩ := List.forall_mem_cons.1 hnames
    have hchars : (ofChain chain).forest.chars = (EmbeddedPath.graphText chain).toList := by
      rw [← ih hrest, text, String.toList_ofList]
    rw [text, ofChain, single, chars_node]
    cases chain with
    | nil => simp [ofChain, empty, charsBelow, charsSiblings, EmbeddedPath.graphText]
    | cons next chain =>
      have htext : EmbeddedPath.graphText (next :: chain) ≠ "" := fun h =>
        hrest next List.mem_cons_self
          (EmbeddedPath.graphText_eq_empty_iff.1 h next List.mem_cons_self)
      rw [charsBelow_of_ne_nil (forest_ofChain_ne_nil (List.cons_ne_nil _ _)), hchars,
        EmbeddedPath.graphText_cons_of_ne htext, ← String.toList_inj]
      simp [charsSiblings]

/-- A chain of relations is read back from its text. -/
theorem parse_graphText (hne : chain ≠ []) (hnames : ∀ name ∈ chain, IsName name)
    (h : reg.Reaches root chain reached) :
    parse reg root (EmbeddedPath.graphText chain) = .ok (ofChain chain) := by
  rw [← text_ofChain fun name hname => (hnames name hname).ne_empty]
  exact parse_text _ (legible_ofChain hnames h) fun heq =>
    forest_ofChain_ne_nil hne (congrArg forest heq)

/-! ### Merging what the entries give -/

theorem mergePaths_eq_ok_iff : mergePaths reg root start paths = .ok graph ↔ ∃ parts,
    List.Forall₂ (fun path part => parse reg root path.graphText = .ok part) paths parts ∧
      graph = parts.foldl merge start := by
  induction paths generalizing start with
  | nil => simp [mergePaths, eq_comm]
  | cons path paths ih =>
    rw [mergePaths]
    cases hpart : parse reg root path.graphText with
    | error refusal => simp [List.forall₂_cons_left_iff, hpart]
    | ok part =>
      simp only [ih, List.forall₂_cons_left_iff, hpart, Except.ok.injEq]
      constructor
      · rintro ⟨parts, hparts, rfl⟩
        exact ⟨_, ⟨part, parts, rfl, hparts, rfl⟩, rfl⟩
      · rintro ⟨_, ⟨_, parts, rfl, hparts, rfl⟩, rfl⟩
        exact ⟨parts, hparts, rfl⟩

theorem hasChain_foldl_merge : (parts.foldl merge start).HasChain chain ↔
    start.HasChain chain ∨ ∃ part ∈ parts, part.HasChain chain := by
  induction parts generalizing start with
  | nil => simp
  | cons part parts ih =>
    rw [List.foldl_cons, ih, hasChain_merge, or_assoc, List.exists_mem_cons_iff]

/-- What is there before is merged with what the paths give by themselves. -/
theorem mergePaths_eq_map (reg : Registry) (root : Schema) (start : FetchGraph)
    (paths : List EmbeddedPath) :
    mergePaths reg root start paths = (mergePaths reg root empty paths).map start.merge := by
  induction paths generalizing start with
  | nil => rfl
  | cons path paths ih =>
    rw [mergePaths, mergePaths]
    cases parse reg root path.graphText with
    | error refusal => rfl
    | ok part =>
      simp only
      rw [ih, ih (empty.merge part), empty_merge]
      cases mergePaths reg root empty paths with
      | error refusal => rfl
      | ok graph => exact congrArg Except.ok (merge_assoc start part graph)

theorem mergePaths_append (h : mergePaths reg root start paths = .ok graph) :
    mergePaths reg root start (paths ++ more) =
      (mergePaths reg root empty more).map graph.merge := by
  induction paths generalizing start with
  | nil =>
    obtain rfl := Except.ok.inj h
    exact mergePaths_eq_map reg root start more
  | cons path paths ih =>
    rw [mergePaths] at h
    rw [List.cons_append, mergePaths]
    cases hpart : parse reg root path.graphText with
    | error refusal => simp [hpart] at h
    | ok part =>
      simp only [hpart] at h
      exact ih h

/-- What stands after a further comma is read for itself and merged. -/
theorem ofEmbedded_append {raw : String} (h : ofEmbedded reg root raw = .ok graph) (text : String) :
    ofEmbedded reg root (raw ++ "," ++ text) =
      (ofEmbedded reg root text).map graph.merge := by
  have hsplit : Text.split ',' (raw ++ "," ++ text) = Text.split ',' raw ++ Text.split ',' text :=
    Text.split_append raw text
  rw [ofEmbedded, hsplit, List.filterMap_append]
  exact mergePaths_append h

/-! ### Chains in a text -/

instance (cs : List Char) : Decidable (AllBlank cs) :=
  List.decidableBAll (fun c => Text.isBlank c) cs

/-- A segment writes a name, with white space around it or none. -/
def Pads (segment name : String) : Prop :=
  ∃ before after, AllBlank before ∧ AllBlank after ∧
    segment.toList = before ++ (name.toList ++ after)

/-- An entry writes a chain: its names in their order with a dot between any two, and white space
anywhere around them. -/
def Dots (entry : String) (chain : List String) : Prop :=
  ∃ segments, List.Forall₂ Pads segments chain ∧ entry = Text.join '.' segments

/-- Each entry either writes the next chain or is blank. -/
inductive Entries : List String → List (List String) → Prop
  | none : Entries [] []
  | chain {entry : String} {entries : List String} {chain : List String}
      {chains : List (List String)} (hentry : Dots entry chain) (hrest : Entries entries chains) :
      Entries (entry :: entries) (chain :: chains)
  | blank {entry : String} {entries : List String} {chains : List (List String)}
      (hentry : AllBlank entry.toList) (hrest : Entries entries chains) :
      Entries (entry :: entries) chains

/-- A text lists chains: entries that write them, with a comma between any two. -/
def Lists (raw : String) (chains : List (List String)) : Prop :=
  ∃ entries, Entries entries chains ∧ raw = Text.join ',' entries

/-- A chain that can be asked for: one name or more, made of letters, digits and underscores, and
relations from the entity on. -/
structure Embeddable (reg : Registry) (root : Schema) (chain : List String) : Prop where
  ne_nil : chain ≠ []
  names : ∀ name ∈ chain, IsName name
  reaches : ∃ reached, reg.Reaches root chain reached

theorem IsName.not_isBlank (h : IsName name) : ∀ c ∈ name.toList, ¬ Text.isBlank c := by
  intro c hc hblank
  have hchar : Text.isNameChar c := h.2 c hc
  rw [Text.isNameChar_eq_false_of_isBlank hblank] at hchar
  cases hchar

namespace Pads

variable {segment : String}

theorem trim_eq (h : Pads segment name) (hname : IsName name) : Text.trim segment = name := by
  obtain ⟨before, after, hbefore, hafter, hsegment⟩ := h
  rw [Text.trim, hsegment, Text.trimChars_append_left_of_isBlank hbefore,
    Text.trimChars_append_of_isBlank hafter, Text.trimChars_eq_self hname.not_isBlank,
    String.ofList_toList]

/-- What can stand neither in a name nor around it is not there. -/
theorem not_mem (h : Pads segment name) (hname : IsName name) {c : Char}
    (hblank : ¬ Text.isBlank c) (hchar : ¬ Text.isNameChar c) : c ∉ segment.toList := by
  obtain ⟨before, after, hbefore, hafter, hsegment⟩ := h
  intro hc
  rw [hsegment, List.mem_append, List.mem_append] at hc
  obtain hc | hc | hc := hc
  · exact hblank (hbefore c hc)
  · exact hchar (hname.2 c hc)
  · exact hblank (hafter c hc)

end Pads

/-- An entry counts unless it is blank, and its segments are trimmed. -/
theorem ofEntry?_eq (entry : String) : EmbeddedPath.ofEntry? entry =
    if Text.isBlankText entry then none else some ((Text.split '.' entry).map Text.trim) := by
  rw [EmbeddedPath.ofEntry?]
  have hdot : ¬ Text.isBlank '.' := by decide
  simp only [Text.trim_eq_empty_iff, Text.map_trim_split_trim hdot]

/-- What an entry is cut into: its segments pad the names of the chain. -/
theorem map_trim_of_pads {segments : List String} (h : List.Forall₂ Pads segments chain)
    (hnames : ∀ name ∈ chain, IsName name) :
    segments.map Text.trim = chain ∧
      ∀ segment ∈ segments, ∃ name, Pads segment name ∧ IsName name := by
  induction h with
  | nil => exact ⟨rfl, by simp⟩
  | cons hpads _ ih =>
    obtain ⟨hname, hrest⟩ := List.forall_mem_cons.1 hnames
    obtain ⟨htrim, hmem⟩ := ih hrest
    exact ⟨congrArg₂ _ (hpads.trim_eq hname) htrim,
      List.forall_mem_cons.2 ⟨⟨_, hpads, hname⟩, hmem⟩⟩

namespace Dots

variable {entry : String}

theorem map_trim_split (h : Dots entry chain) (hchain : Embeddable reg root chain) :
    (Text.split '.' entry).map Text.trim = chain := by
  obtain ⟨segments, hsegments, rfl⟩ := h
  obtain ⟨htrim, hmem⟩ := map_trim_of_pads hsegments hchain.names
  have hne : segments ≠ [] := by
    rintro rfl
    exact hchain.ne_nil (List.forall₂_nil_left_iff.1 hsegments)
  have hdot : ∀ segment ∈ segments, '.' ∉ segment.toList := by
    intro segment hsegment
    obtain ⟨name, hpads, hname⟩ := hmem segment hsegment
    exact hpads.not_mem hname (by decide) (by decide)
  rw [Text.split_join hne hdot, htrim]

theorem comma_not_mem (h : Dots entry chain) (hchain : Embeddable reg root chain) :
    ',' ∉ entry.toList := by
  obtain ⟨segments, hsegments, rfl⟩ := h
  intro hcomma
  obtain hdot | ⟨segment, hsegment, hc⟩ := Text.mem_join hcomma
  · exact absurd hdot (by decide)
  · obtain ⟨name, hpads, hname⟩ := (map_trim_of_pads hsegments hchain.names).2 segment hsegment
    exact hpads.not_mem hname (by decide) (by decide) hc

theorem ofEntry?_eq_some (h : Dots entry chain) (hchain : Embeddable reg root chain) :
    EmbeddedPath.ofEntry? entry = some chain := by
  have hsplit := h.map_trim_split hchain
  rw [ofEntry?_eq, hsplit, if_neg]
  intro hblank
  -- a blank entry would be one segment, and nothing would be left of it
  have hdot : '.' ∉ entry.toList := fun hdot =>
    absurd (List.all_eq_true.1 hblank '.' hdot) (by decide)
  rw [Text.split, Text.splitChars_of_not_mem hdot, List.map_singleton, String.ofList_toList,
    List.map_singleton, Text.trim_eq_empty_iff.2 hblank] at hsplit
  exact (hchain.names "" (hsplit ▸ List.mem_singleton_self "")).ne_empty rfl

end Dots

theorem isBlankText_of_allBlank {entry : String} (h : AllBlank entry.toList) :
    Text.isBlankText entry :=
  List.all_eq_true.2 h

namespace Entries

variable {entries : List String} {asked : List (List String)}

theorem filterMap_ofEntry? (h : Entries entries asked)
    (hasked : ∀ chain ∈ asked, Embeddable reg root chain) :
    entries.filterMap EmbeddedPath.ofEntry? = asked := by
  induction h with
  | none => rfl
  | chain hentry _ ih =>
    obtain ⟨hchain, hrest⟩ := List.forall_mem_cons.1 hasked
    rw [List.filterMap_cons_some (hentry.ofEntry?_eq_some hchain), ih hrest]
  | blank hentry _ ih =>
    have hnone := (ofEntry?_eq _).trans (if_pos (isBlankText_of_allBlank hentry))
    rw [List.filterMap_cons_none hnone, ih hasked]

theorem comma_not_mem (h : Entries entries asked)
    (hasked : ∀ chain ∈ asked, Embeddable reg root chain) :
    ∀ entry ∈ entries, ',' ∉ entry.toList := by
  induction h with
  | none => simp
  | chain hentry _ ih =>
    obtain ⟨hchain, hrest⟩ := List.forall_mem_cons.1 hasked
    exact List.forall_mem_cons.2 ⟨hentry.comma_not_mem hchain, ih hrest⟩
  | blank hentry _ ih =>
    refine List.forall_mem_cons.2 ⟨fun hcomma => ?_, ih hasked⟩
    exact absurd (hentry ',' hcomma) (by decide)

end Entries

/-- The chains that a text lists are what it is taken apart into. -/
theorem Lists.filterMap_split {raw : String} {asked : List (List String)} (h : Lists raw asked)
    (hasked : ∀ chain ∈ asked, Embeddable reg root chain) :
    (Text.split ',' raw).filterMap EmbeddedPath.ofEntry? = asked := by
  obtain ⟨entries, hentries, rfl⟩ := h
  cases entries with
  | nil =>
    cases hentries
    rfl
  | cons entry entries =>
    rw [Text.split_join (List.cons_ne_nil _ _) (hentries.comma_not_mem hasked)]
    exact hentries.filterMap_ofEntry? hasked

/-- Chains that can be asked for are read and united. -/
theorem exists_ofEmbedded_of_lists {raw : String} {asked : List (List String)} (h : Lists raw asked)
    (hasked : ∀ chain ∈ asked, Embeddable reg root chain) :
    ∃ graph, ofEmbedded reg root raw = .ok graph ∧
      ∀ path, path ≠ [] → (graph.HasChain path ↔ ∃ chain ∈ asked, path <+: chain) := by
  refine ⟨(asked.map ofChain).foldl merge empty, ?_, fun path hpath => ?_⟩
  · rw [ofEmbedded, h.filterMap_split hasked, mergePaths_eq_ok_iff]
    refine ⟨asked.map ofChain, List.forall₂_map_right_iff.2 (List.forall₂_same.2 ?_), rfl⟩
    intro chain hchain
    obtain ⟨hne, hnames, reached, hreaches⟩ := hasked chain hchain
    exact parse_graphText hne hnames hreaches
  · rw [hasChain_foldl_merge]
    obtain ⟨name, path, rfl⟩ := List.exists_cons_of_ne_nil hpath
    simp [not_hasChain_empty, hasChain_ofChain]

/-- **The entries of a request are united.** If a text lists chains that can be asked for, then it
is accepted, and the graph leads along the prefixes of these chains and no further. So any other
list of chains with the same prefixes gives the same graph, whatever their order and however often
and in how many entries they are there; and whatever is written after a further comma is merged into
the graph, so that its chains stay. -/
theorem embedded_is_union {reg : Registry} {root : Schema} {raw : String}
    {asked : List (List String)} (hraw : Lists raw asked)
    (hasked : ∀ chain ∈ asked, Embeddable reg root chain) :
    ∃ graph, ofEmbedded reg root raw = .ok graph ∧
      (∀ path, path ≠ [] → (graph.HasChain path ↔ ∃ chain ∈ asked, path <+: chain)) ∧
      (∀ other others, Lists other others → (∀ chain ∈ others, Embeddable reg root chain) →
        (∀ path, path ≠ [] →
          ((∃ chain ∈ others, path <+: chain) ↔ ∃ chain ∈ asked, path <+: chain)) →
        ofEmbedded reg root other = .ok graph) ∧
      ∀ text, ofEmbedded reg root (raw ++ "," ++ text) =
          (ofEmbedded reg root text).map graph.merge ∧
        ∀ larger, ofEmbedded reg root (raw ++ "," ++ text) = .ok larger → graph ⊆ larger := by
  obtain ⟨graph, hgraph, hchains⟩ := exists_ofEmbedded_of_lists hraw hasked
  refine ⟨graph, hgraph, hchains, ?_, fun text => ⟨ofEmbedded_append hgraph text, ?_⟩⟩
  · intro other others hother hothers hsame
    obtain ⟨found, hfound, hfoundChains⟩ := exists_ofEmbedded_of_lists hother hothers
    have heq : found = graph := by
      refine ext_chains fun path => ?_
      by_cases hpath : path = []
      · subst hpath
        exact iff_of_true (Forest.hasChain_nil_right _) (Forest.hasChain_nil_right _)
      · rw [hfoundChains path hpath, hsame path hpath, hchains path hpath]
    rw [hfound, heq]
  · intro larger hlarger
    rw [ofEmbedded_append hgraph] at hlarger
    cases htext : ofEmbedded reg root text with
    | error refusal => simp [htext, Except.map] at hlarger
    | ok further =>
      obtain rfl : graph.merge further = larger := by simpa [htext, Except.map] using hlarger
      exact subset_merge_left

/-- From a row of a tree any way up and down can be asked for. -/
theorem embeddable_treeRows (hne : chain ≠ [])
    (h : ∀ name ∈ chain, name = "parent" ∨ name = "children") :
    Embeddable (.ofList [treeRows]) treeRows chain := by
  refine ⟨hne, fun name hname => ?_, treeRows, ?_⟩
  · rcases h name hname with rfl | rfl <;> exact ⟨by decide, List.all_eq_true.1 rfl⟩
  · clear hne
    induction chain with
    | nil => exact .here treeRows
    | cons name chain ih =>
      obtain ⟨hname, hrest⟩ := List.forall_mem_cons.1 h
      rcases hname with rfl | rfl
      · exact .along rfl rfl (ih hrest)
      · exact .along rfl rfl (ih hrest)

/-- The way up and down again, the children, and the parent, which is on the way already. -/
def treeChains : List (List String) := [["parent", "children"], ["children"], ["parent"]]

theorem lists_treeChains : Lists " parent . children,, \u2003children ,parent" treeChains := by
  refine ⟨[" parent . children", "", " \u2003children ", "parent"], ?_, rfl⟩
  refine .chain ⟨[" parent ", " children"], ?_, rfl⟩ (.blank (by decide)
    (.chain ⟨[" \u2003children "], ?_, rfl⟩ (.chain ⟨["parent"], ?_, rfl⟩ .none)))
  · exact .cons ⟨[' '], [' '], by decide, by decide, rfl⟩
      (.cons ⟨[' '], [], by decide, by decide, rfl⟩ .nil)
  · exact .cons ⟨[' ', '\u2003'], [' '], by decide, by decide, rfl⟩ .nil
  · exact .cons ⟨[], [], by decide, by decide, rfl⟩ .nil

theorem lists_upAndDown :
    Lists "children,parent.children" [["children"], ["parent", "children"]] := by
  refine ⟨["children", "parent.children"], ?_, rfl⟩
  refine .chain ⟨["children"], .cons ⟨[], [], by decide, by decide, rfl⟩ .nil, rfl⟩
    (.chain ⟨["parent", "children"], ?_, rfl⟩ .none)
  exact .cons ⟨[], [], by decide, by decide, rfl⟩ (.cons ⟨[], [], by decide, by decide, rfl⟩ .nil)

/-- In another order and without the entry that is a prefix of another, the graph is the same. -/
theorem embedded_is_union_of_treeChains :
    Lists " parent . children,, \u2003children ,parent" treeChains ∧
      (∀ chain ∈ treeChains, Embeddable (.ofList [treeRows]) treeRows chain) ∧
      ∃ graph, ofEmbedded (.ofList [treeRows]) treeRows
          " parent . children,, \u2003children ,parent" = .ok graph ∧
        graph.HasChain ["parent", "children"] ∧ ¬ graph.HasChain ["children", "parent"] ∧
        ofEmbedded (.ofList [treeRows]) treeRows "children,parent.children" = .ok graph := by
  have hembeddable : ∀ asked : List (List String), (∀ chain ∈ asked, chain ≠ []) →
      (∀ chain ∈ asked, ∀ name ∈ chain, name = "parent" ∨ name = "children") →
        ∀ chain ∈ asked, Embeddable (.ofList [treeRows]) treeRows chain :=
    fun asked hne h chain hchain => embeddable_treeRows (hne chain hchain) (h chain hchain)
  have hasked := hembeddable treeChains (by decide) (by decide)
  obtain ⟨graph, hgraph, hchains, hsame, -⟩ := embedded_is_union lists_treeChains hasked
  refine ⟨lists_treeChains, hasked, graph, hgraph, (hchains _ (by decide)).2 (by decide),
    mt (hchains _ (by decide)).1 (by decide), ?_⟩
  refine hsame _ _ lists_upAndDown (hembeddable _ (by decide) (by decide)) fun path _ => ?_
  have hshort : path <+: ["parent"] → path <+: ["parent", "children"] :=
    fun h => h.trans ⟨["children"], rfl⟩
  simp only [treeChains, List.exists_mem_cons_iff, List.not_mem_nil, false_and, exists_false]
  tauto

end FetchGraph

end QuerySieve
