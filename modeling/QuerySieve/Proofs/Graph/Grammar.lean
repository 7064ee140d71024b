import QuerySieve.Proofs.EagerLoad.Edge
import QuerySieve.Proofs.Graph.Chains

/-!
# QuerySieve.Proofs.Graph.Grammar

**The texts that are read as graphs** are the words of a grammar whose names are relations.

The grammar is given apart from the parser. Its words are lists of tokens (`Listing`), its trees are
forests in the order of the text, where a name may occur more than once; `Spells` says how tokens
are spelled, each after any white space and names as long as they go.

Reading is held against it in both directions, by inductions on the bound of the parser: what has
been read was a list (`exists_listing_of_items`), and a list is read whatever follows it, as long as
that does not carry the list on (`complete`). That the bound decides nothing is `items_of_le`.
-/

namespace QuerySieve.FetchGraph

/-! ### The grammar -/

/-- What the text of a graph is made of. -/
inductive Token
  | name (name : String)
  | mark (mark : Char)
  deriving DecidableEq, Repr

mutual

/-- `item ::= name | name '(' list ')'`, with the one tree that the item writes. -/
inductive Item : List Token → Forest → Prop
  | plain (name : String) : Item [.name name] (.node name .nil .nil)
  | nested (name : String) {inner : List Token} {below : Forest} (hbelow : Listing inner below) :
      Item (.name name :: .mark '(' :: (inner ++ [.mark ')'])) (.node name below .nil)

/-- `list ::= item (',' item)*`, with the trees that its items write, in their order. -/
inductive Listing : List Token → Forest → Prop
  | last {tokens : List Token} {item : Forest} (hitem : Item tokens item) : Listing tokens item
  | more {tokens following : List Token} {item others : Forest} (hitem : Item tokens item)
      (hothers : Listing following others) :
      Listing (tokens ++ .mark ',' :: following) (item.append others)

end

/-- Nothing but white space. -/
def AllBlank (cs : List Char) : Prop := ∀ c ∈ cs, Text.isBlank c

/-- A text starts with the tokens, each after any white space, and goes on with `rest`. A name is
all the name characters that stand in a row. -/
inductive Spells (rest : List Char) : List Token → List Char → Prop
  | done : Spells rest [] rest
  | name {blanks following : List Char} {name : String} {tokens : List Token}
      (hblanks : AllBlank blanks) (hname : IsName name)
      (hmaximal : ∀ c ∈ following.head?, Text.isNameChar c = false)
      (hfollowing : Spells rest tokens following) :
      Spells rest (.name name :: tokens) (blanks ++ (name.toList ++ following))
  | mark {blanks following : List Char} {mark : Char} {tokens : List Token}
      (hblanks : AllBlank blanks) (hfollowing : Spells rest tokens following) :
      Spells rest (.mark mark :: tokens) (blanks ++ mark :: following)

/-- The whole text writes the trees of a forest. -/
def Writes (text : List Char) (written : Forest) : Prop :=
  ∃ tokens rest, Listing tokens written ∧ Spells rest tokens text ∧ AllBlank rest

variable {reg : Registry} {owner target root : Schema} {text input rest after : List Char}
variable {bound : Nat} {graph children : FetchGraph} {tokens following : List Token}
variable {written item : Forest} {mark other : Char}

namespace Spells

theorem append {mid : List Char} (h : Spells mid tokens input) (hrest : Spells rest following mid) :
    Spells rest (tokens ++ following) input := by
  induction h with
  | done => exact hrest
  | name hblanks hname hmaximal _ ih => exact .name hblanks hname hmaximal ih
  | mark hblanks _ ih => exact .mark hblanks ih

theorem of_append (h : Spells rest (tokens ++ following) input) :
    ∃ mid, Spells mid tokens input ∧ Spells rest following mid := by
  induction tokens generalizing input with
  | nil => exact ⟨input, .done, h⟩
  | cons token tokens ih =>
    cases h with
    | name hblanks hname hmaximal hfollowing =>
      obtain ⟨mid, hmid, hrest⟩ := ih hfollowing
      exact ⟨mid, .name hblanks hname hmaximal hmid, hrest⟩
    | mark hblanks hfollowing =>
      obtain ⟨mid, hmid, hrest⟩ := ih hfollowing
      exact ⟨mid, .mark hblanks hmid, hrest⟩

theorem suffix (h : Spells rest tokens input) : rest <:+ input := by
  induction h with
  | done => exact List.suffix_rfl
  | name _ _ _ _ ih =>
    exact (ih.trans (List.suffix_append _ _)).trans (List.suffix_append _ _)
  | mark _ _ ih => exact (ih.trans (List.suffix_cons _ _)).trans (List.suffix_append _ _)

end Spells

/-! ### Names and marks in a text -/

theorem exists_blanks (input : List Char) :
    ∃ blanks, AllBlank blanks ∧ input = blanks ++ skipBlank input :=
  ⟨input.takeWhile Text.isBlank, fun _ hc => List.mem_takeWhile_imp hc,
    List.takeWhile_append_dropWhile.symm⟩

theorem skipBlank_append {blanks cs : List Char} (hblanks : AllBlank blanks) :
    skipBlank (blanks ++ cs) = skipBlank cs :=
  List.dropWhile_append_of_pos hblanks

theorem AllBlank.eat? (h : AllBlank rest) (mark : Char) : eat? mark rest = none := by
  have hskip : skipBlank rest = [] := List.dropWhile_eq_nil_iff.2 h
  rw [FetchGraph.eat?, hskip]

/-- A mark that was eaten was there, after blanks. -/
theorem spells_of_eat? (h : eat? mark input = some after) (hrest : Spells rest tokens after) :
    Spells rest (.mark mark :: tokens) input := by
  obtain ⟨blanks, hblanks, hinput⟩ := exists_blanks input
  unfold eat? at h
  split at h
  · rename_i c cs hskip
    split at h
    · rename_i heq
      obtain rfl := Option.some.inj h
      rw [hinput, hskip, heq]
      exact .mark hblanks hrest
    · cases h
  · cases h

theorem suffix_of_eat? (h : eat? mark input = some after) :
    after <:+ input ∧ after.length < input.length := by
  have hspells := spells_of_eat? h .done
  cases hspells with
  | mark _ hfollowing =>
    cases hfollowing with
    | done =>
      refine ⟨(List.suffix_cons _ _).trans (List.suffix_append _ _), ?_⟩
      rw [List.length_append, List.length_cons]
      omega

/-- A mark that is there is eaten, and no other mark is. -/
theorem eat?_of_spells (hmark : IsMark mark) (h : Spells rest (.mark mark :: tokens) input) :
    ∃ after, Spells rest tokens after ∧ after.length < input.length ∧
      ∀ other, eat? other input = if mark = other then some after else none := by
  cases h with
  | @mark blanks after _ _ hblanks hafter =>
    refine ⟨after, hafter, by rw [List.length_append, List.length_cons]; omega, fun other => ?_⟩
    rw [eat?, skipBlank_append hblanks]
    exact hmark.eat? after

/-- A name that was taken was there, after blanks. -/
theorem spells_of_takeWhile {name : List Char}
    (hname : (skipBlank input).takeWhile Text.isNameChar = name) (hne : name ≠ [])
    (hrest : Spells rest tokens ((skipBlank input).dropWhile Text.isNameChar)) :
    Spells rest (.name (.ofList name) :: tokens) input := by
  obtain ⟨blanks, hblanks, hinput⟩ := exists_blanks input
  have hread : IsName (.ofList name) := by
    rw [IsName, String.toList_ofList]
    exact ⟨hne, fun c hc => List.mem_takeWhile_imp (hname ▸ hc)⟩
  have hmaximal : ∀ c ∈ ((skipBlank input).dropWhile Text.isNameChar).head?,
      Text.isNameChar c = false := by
    intro c hc
    have hstop := List.head?_dropWhile_not Text.isNameChar (skipBlank input)
    rw [Option.mem_def.1 hc] at hstop
    simpa using hstop
  have hsplit : input = blanks ++ ((String.ofList name).toList ++
      (skipBlank input).dropWhile Text.isNameChar) := by
    rw [String.toList_ofList, ← hname, List.takeWhile_append_dropWhile]
    exact hinput
  rw [hsplit]
  exact .name hblanks hread hmaximal hrest

/-- A name that is there is taken as it is. -/
theorem takeWhile_of_spells {name : String} (h : Spells rest (.name name :: tokens) input) :
    name.toList ≠ [] ∧ (skipBlank input).takeWhile Text.isNameChar = name.toList ∧
      Spells rest tokens ((skipBlank input).dropWhile Text.isNameChar) ∧
      ((skipBlank input).dropWhile Text.isNameChar).length < input.length := by
  cases h with
  | @name blanks following _ _ hblanks hname hmaximal hfollowing =>
    obtain ⟨hskip, htake, hdrop⟩ := hname.span hmaximal
    have hlength : 0 < name.toList.length := List.length_pos_iff.2 hname.1
    rw [skipBlank_append hblanks, hskip, htake, hdrop]
    refine ⟨hname.1, rfl, hfollowing, ?_⟩
    rw [List.length_append, List.length_append]
    omega

/-! ### What has been read was written -/

theorem relationTarget_eq_ok_iff {name : String} :
    relationTarget reg owner name = .ok target ↔ ∃ relation,
      owner.relationAt? name = some relation ∧
        reg.entities.get? relation.target = some target := by
  unfold relationTarget Schema.relationAt?
  cases owner.field? name with
  | none => simp
  | some field =>
    cases hrelation : field.relation? with
    | none => simp [hrelation]
    | some relation =>
      cases hschema : reg.schema relation.target with
      | error refusal =>
        have hnone : ∀ found, reg.entities.get? relation.target ≠ some found := by
          intro found hfound
          rw [Registry.schema_eq_ok_iff.2 hfound] at hschema
          cases hschema
        simp [hrelation, hschema, hnone]
      | ok found =>
        have hfound := Registry.schema_eq_ok_iff.1 hschema
        simp [hrelation, hschema, hfound]

theorem fits_append {a b : Forest} :
    (a.append b).Fits reg owner ↔ a.Fits reg owner ∧ b.Fits reg owner := by
  induction a with
  | nil => exact (and_iff_right trivial).symm
  | node name below siblings _ ih => exact (and_congr_right fun _ => ih).trans and_assoc.symm

theorem hasChain_single_congr {name : String} {below : Forest}
    (h : ∀ chain, children.HasChain chain ↔ below.HasChain chain) (chain : List String) :
    (single name children).HasChain chain ↔ (Forest.node name below .nil).HasChain chain := by
  cases chain with
  | nil => simp [HasChain]
  | cons first chain => exact or_congr_left (and_congr_right fun _ => h chain)

/-- **Soundness.** What has been read starts with a list whose names are relations, and the graph
leads along the chains written there. -/
theorem exists_listing_of_items (h : items reg text bound owner input = .ok (graph, rest)) :
    ∃ tokens written, Listing tokens written ∧ Spells rest tokens input ∧
      written.Fits reg owner ∧ ∀ chain, graph.HasChain chain ↔ written.HasChain chain := by
  induction bound generalizing owner input graph rest with
  | zero => cases h
  | succ bound ih =>
    obtain ⟨name, target, children, after, hname, hne, htarget, hbelow, hsiblings⟩ := items_eq_ok h
    obtain ⟨relation, hrelation, htarget⟩ := relationTarget_eq_ok_iff.1 htarget
    have hitem : ∃ tokens item, Item tokens item ∧ Spells after tokens input ∧
        item.Fits reg owner ∧
          ∀ chain, (single (.ofList name) children).HasChain chain ↔ item.HasChain chain := by
      obtain ⟨-, rfl, rfl⟩ | ⟨inner, closing, hopen, hinner, hclose⟩ :=
        readBelow_eq_ok_iff.1 hbelow
      · exact ⟨_, _, .plain _, spells_of_takeWhile hname hne .done,
          ⟨⟨relation, target, hrelation, htarget, trivial⟩, trivial⟩, fun _ => Iff.rfl⟩
      · obtain ⟨tokens, below, hlist, hspells, hfits, hchains⟩ := ih hinner
        refine ⟨_, _, .nested _ hlist, spells_of_takeWhile hname hne (spells_of_eat? hopen ?_),
          ⟨⟨relation, target, hrelation, htarget, hfits⟩, trivial⟩, hasChain_single_congr hchains⟩
        exact hspells.append (spells_of_eat? hclose .done)
    obtain ⟨tokens, item, hitem, hspells, hfits, hchains⟩ := hitem
    obtain ⟨-, rfl, rfl⟩ | ⟨more, others, hcomma, hmore, rfl⟩ :=
      readSiblings_eq_ok_iff.1 hsiblings
    · exact ⟨tokens, item, .last hitem, hspells, hfits, hchains⟩
    · obtain ⟨following, written, hlist, hrest, hothers, hsame⟩ := ih hmore
      refine ⟨_, _, .more hitem hlist, hspells.append (spells_of_eat? hcomma hrest),
        fits_append.2 ⟨hfits, hothers⟩, fun chain => ?_⟩
      rw [Forest.hasChain_append, ← hchains, ← hsame]
      exact Forest.hasChain_merge

/-! ### What is written is read -/

theorem Listing.exists_name (h : Listing tokens written) :
    ∃ name following, tokens = .name name :: following := by
  cases h with
  | last hitem =>
    cases hitem with
    | plain name => exact ⟨name, _, rfl⟩
    | nested name _ => exact ⟨name, _, rfl⟩
  | more hitem _ =>
    cases hitem with
    | plain name => exact ⟨name, _, rfl⟩
    | nested name _ => exact ⟨name, _, rfl⟩

/-- Reading with a bound is complete: it finds every list that is no longer than the bound and that
neither a parenthesis nor a comma carries on. -/
def Complete (reg : Registry) (text : List Char) (bound : Nat) : Prop :=
  ∀ {owner tokens written input rest}, Listing tokens written → Spells rest tokens input →
    written.Fits reg owner → eat? '(' rest = none → eat? ',' rest = none → input.length ≤ bound →
      ∃ graph, items reg text bound owner input = .ok (graph, rest) ∧
        ∀ chain, graph.HasChain chain ↔ written.HasChain chain

theorem complete_zero (reg : Registry) (text : List Char) : Complete reg text 0 := by
  intro owner tokens written input rest hlist hspells _ _ _ hbound
  obtain ⟨name, following, rfl⟩ := hlist.exists_name
  obtain ⟨-, -, -, hlength⟩ := takeWhile_of_spells hspells
  omega

/-- An item is read up to what follows it. -/
theorem Complete.readItem (h : Complete reg text bound) (hitem : Item tokens item)
    (hspells : Spells after tokens input) (hfits : item.Fits reg owner)
    (hopen : eat? '(' after = none) (hbound : input.length ≤ bound + 1) :
    ∃ found, items reg text (bound + 1) owner input =
        readSiblings reg text bound owner found after ∧
      ∀ chain, found.HasChain chain ↔ item.HasChain chain := by
  cases hitem with
  | plain name =>
    obtain ⟨hne, htake, hfollowing, -⟩ := takeWhile_of_spells hspells
    obtain ⟨⟨relation, target, hrelation, htarget, -⟩, -⟩ := hfits
    have hbelow : readBelow reg text bound target
        ((skipBlank input).dropWhile Text.isNameChar) = .ok (empty, after) := by
      cases hfollowing with
      | done => exact readBelow_eq_ok_iff.2 (.inl ⟨hopen, rfl, rfl⟩)
    exact ⟨single name empty, items_eq_readSiblings htake hne
      (relationTarget_eq_ok_iff.2 ⟨relation, hrelation, htarget⟩) hbelow, fun _ => Iff.rfl⟩
  | @nested name inner below hlist =>
    obtain ⟨hne, htake, hfollowing, hlength⟩ := takeWhile_of_spells hspells
    obtain ⟨⟨relation, target, hrelation, htarget, hbelowFits⟩, -⟩ := hfits
    obtain ⟨inside, hinside, hinsideLength, heatOpen⟩ := eat?_of_spells (.inl rfl) hfollowing
    obtain ⟨closing, hinner, hclosing⟩ := hinside.of_append
    obtain ⟨outside, houtside, -, heatClose⟩ := eat?_of_spells (.inr (.inl rfl)) hclosing
    -- the closing parenthesis carries the list inside on in no way
    obtain ⟨children, hread, hchains⟩ := h hlist hinner hbelowFits
      ((heatClose '(').trans (if_neg (by decide))) ((heatClose ',').trans (if_neg (by decide)))
      (by omega)
    have hbelow : readBelow reg text bound target
        ((skipBlank input).dropWhile Text.isNameChar) = .ok (children, after) := by
      cases houtside with
      | done =>
        exact readBelow_eq_ok_iff.2 (.inr ⟨inside, closing, (heatOpen '(').trans (if_pos rfl),
          hread, (heatClose ')').trans (if_pos rfl)⟩)
    exact ⟨single name children, items_eq_readSiblings htake hne
      (relationTarget_eq_ok_iff.2 ⟨relation, hrelation, htarget⟩) hbelow,
      hasChain_single_congr hchains⟩

theorem Complete.succ (h : Complete reg text bound) : Complete reg text (bound + 1) := by
  intro owner tokens written input rest hlist hspells hfits hopen hcomma hbound
  cases hlist with
  | last hitem =>
    obtain ⟨found, hfound, hchains⟩ := h.readItem hitem hspells hfits hopen hbound
    exact ⟨found, hfound.trans (readSiblings_eq_ok_iff.2 (.inl ⟨hcomma, rfl, rfl⟩)), hchains⟩
  | @more first following item others hitem hothers =>
    obtain ⟨mid, hfirst, hmid⟩ := hspells.of_append
    obtain ⟨more, hmore, hlength, heat⟩ := eat?_of_spells (.inr (.inr rfl)) hmid
    obtain ⟨hitemFits, hothersFits⟩ := fits_append.1 hfits
    obtain ⟨found, hfound, hchains⟩ := h.readItem hitem hfirst hitemFits
      ((heat '(').trans (if_neg (by decide))) hbound
    have hmidLength := hfirst.suffix.length_le
    obtain ⟨further, hread, hsame⟩ := h hothers hmore hothersFits hopen hcomma (by omega)
    refine ⟨found.merge further, hfound.trans (readSiblings_eq_ok_iff.2 (.inr
      ⟨more, further, (heat ',').trans (if_pos rfl), hread, rfl⟩)), fun chain => ?_⟩
    rw [Forest.hasChain_append, ← hchains, ← hsame]
    exact Forest.hasChain_merge

/-- **Completeness.** A list is read up to its end, into a graph that leads along the chains that
are written. -/
theorem complete (reg : Registry) (text : List Char) (bound : Nat) : Complete reg text bound := by
  induction bound with
  | zero => exact complete_zero reg text
  | succ bound ih => exact ih.succ

/-! ### The bound decides nothing -/

theorem suffix_of_readBelow
    (h : readBelow reg text bound target input = .ok (children, after)) : after <:+ input := by
  obtain ⟨-, -, rfl⟩ | ⟨inner, closing, hopen, hinner, hclose⟩ := readBelow_eq_ok_iff.1 h
  · exact List.suffix_rfl
  · obtain ⟨tokens, written, -, hspells, -, -⟩ := exists_listing_of_items hinner
    exact (suffix_of_eat? hclose).1.trans (hspells.suffix.trans (suffix_of_eat? hopen).1)

theorem dropWhile_suffix_and_shorter (h : (skipBlank input).takeWhile Text.isNameChar ≠ []) :
    (skipBlank input).dropWhile Text.isNameChar <:+ input ∧
      ((skipBlank input).dropWhile Text.isNameChar).length < input.length := by
  have hspells := spells_of_takeWhile rfl h .done
  obtain ⟨-, -, -, hlength⟩ := takeWhile_of_spells hspells
  exact ⟨hspells.suffix, hlength⟩

theorem items_succ_of_le (hbound : input.length ≤ bound) :
    items reg text (bound + 1) owner input = items reg text bound owner input := by
  induction bound generalizing owner input with
  | zero =>
    obtain rfl : input = [] := List.eq_nil_of_length_eq_zero (Nat.le_zero.1 hbound)
    rfl
  | succ bound ih =>
    rw [items_succ reg text (bound + 1), items_succ reg text bound]
    by_cases hname : (skipBlank input).takeWhile Text.isNameChar = []
    · rw [if_pos hname, if_pos hname]
    · rw [if_neg hname, if_neg hname]
      obtain ⟨-, hlength⟩ := dropWhile_suffix_and_shorter hname
      refine bind_congr fun target => ?_
      -- what is below and beside the item is shorter than the list
      have hbelow : readBelow reg text (bound + 1) target
          ((skipBlank input).dropWhile Text.isNameChar) =
            readBelow reg text bound target ((skipBlank input).dropWhile Text.isNameChar) := by
        unfold readBelow
        cases hopen : eat? '(' ((skipBlank input).dropWhile Text.isNameChar) with
        | none => rfl
        | some inner =>
          obtain ⟨-, hshorter⟩ := suffix_of_eat? hopen
          have hinner : inner.length ≤ bound := by omega
          simp only [ih hinner]
      rw [hbelow]
      cases hread : readBelow reg text bound target
        ((skipBlank input).dropWhile Text.isNameChar) with
      | error fault => rfl
      | ok below =>
        have hafter := (suffix_of_readBelow hread).length_le
        show readSiblings _ _ _ _ _ _ = readSiblings _ _ _ _ _ _
        unfold readSiblings
        cases hcomma : eat? ',' below.2 with
        | none => rfl
        | some more =>
          obtain ⟨-, hshorter⟩ := suffix_of_eat? hcomma
          have hmore : more.length ≤ bound := by omega
          simp only [ih hmore]

/-- From the length of the text on every bound reads the same: no text is too deep or too long. -/
theorem items_of_le (hbound : input.length ≤ bound) :
    items reg text bound owner input = items reg text input.length owner input := by
  induction bound, hbound using Nat.le_induction with
  | base => rfl
  | succ bound hbound ih => rw [items_succ_of_le hbound, ih]

/-! ### Where a name is missing -/

theorem byteLength_append (xs ys : List Char) :
    byteLength (xs ++ ys) = byteLength xs + byteLength ys := by
  induction xs with
  | nil => exact (Nat.zero_add _).symm
  | cons c xs ih =>
    have hcons : ∀ cs, byteLength (c :: cs) = c.utf8Size + byteLength cs := fun _ => rfl
    rw [List.cons_append, hcons, hcons, ih, Nat.add_assoc]

theorem utf8ByteSize_ofList (cs : List Char) :
    (String.ofList cs).utf8ByteSize = byteLength cs := by
  induction cs with
  | nil => rfl
  | cons c cs ih =>
    rw [String.ofList_cons, String.utf8ByteSize_append, String.utf8ByteSize_singleton, ih]
    rfl

/-- If the fault is that a name is missing, then its offset is that of a place in the text where
neither a blank nor a name begins. -/
def Points (text : List Char) (fault : GraphFault) : Prop :=
  ∀ offset, fault = .expectedName offset → ∃ before after, text = before ++ after ∧
    offset = byteLength before ∧
      ∀ c ∈ after.head?, Text.isBlank c = false ∧ Text.isNameChar c = false

theorem points_nameExpected (hsuffix : input <:+ text)
    (hnone : (skipBlank input).takeWhile Text.isNameChar = []) :
    Points text (nameExpected text input) := by
  intro offset hoffset
  obtain ⟨before, hbefore⟩ : skipBlank input <:+ text :=
    (List.dropWhile_suffix _).trans hsuffix
  refine ⟨before, skipBlank input, hbefore.symm, ?_, fun c hc => ⟨?_, ?_⟩⟩
  · rw [← GraphFault.expectedName.inj hoffset, ← hbefore, byteLength_append, Nat.add_sub_cancel]
  · have hstop := List.head?_dropWhile_not Text.isBlank input
    rw [← skipBlank, Option.mem_def.1 hc] at hstop
    simpa using hstop
  · obtain ⟨cs, hcs⟩ := List.head?_eq_some_iff.1 hc
    rw [hcs, List.takeWhile_cons] at hnone
    by_contra hchar
    rw [Bool.not_eq_false] at hchar
    rw [if_pos hchar] at hnone
    cases hnone

theorem points_of_relationTarget {name : String} {fault : GraphFault}
    (h : relationTarget reg owner name = .error fault) : Points text fault := by
  rintro offset rfl
  unfold relationTarget at h
  split at h
  · cases h
  · split at h
    · cases h
    · split at h <;> cases h

/-- What is below a name is refused for a parenthesis that is missing or inside of one. -/
theorem readBelow_eq_error {fault : GraphFault}
    (h : readBelow reg text bound target input = .error fault) :
    fault = .unclosed ∨ ∃ inner, eat? '(' input = some inner ∧
      items reg text bound target inner = .error fault := by
  unfold readBelow at h
  cases hopen : eat? '(' input with
  | none => simp [hopen] at h
  | some inner =>
    cases hread : items reg text bound target inner with
    | error other =>
      simp only [hopen, hread] at h
      exact .inr ⟨inner, rfl, hread.trans h⟩
    | ok found =>
      cases hclose : eat? ')' found.2 with
      | none =>
        simp only [hopen, hread, hclose] at h
        exact .inl (Except.error.inj h).symm
      | some rest => simp [hopen, hread, hclose] at h

theorem readSiblings_eq_error {found : FetchGraph} {fault : GraphFault}
    (h : readSiblings reg text bound owner found input = .error fault) :
    ∃ more, eat? ',' input = some more ∧ items reg text bound owner more = .error fault := by
  unfold readSiblings at h
  cases hcomma : eat? ',' input with
  | none => simp [hcomma] at h
  | some more =>
    cases hread : items reg text bound owner more with
    | error other =>
      simp only [hcomma, hread] at h
      exact ⟨more, rfl, hread.trans h⟩
    | ok others => simp [hcomma, hread] at h

/-- Whatever a list is refused for is a parenthesis that is not closed, a name that is missing at
some place of the text, or a name that does not lead on from an entity that has been come to. -/
theorem holds_of_items_eq_error {P : GraphFault → Prop} (Visited : Schema → Prop)
    (hunclosed : P .unclosed)
    (hmissing : ∀ rest, rest <:+ text → (skipBlank rest).takeWhile Text.isNameChar = [] →
      P (nameExpected text rest))
    (hastray : ∀ owner name fault, Visited owner → relationTarget reg owner name = .error fault →
      P fault)
    (hon : ∀ owner name target, Visited owner → relationTarget reg owner name = .ok target →
      Visited target)
    {fault : GraphFault} (h : items reg text bound owner input = .error fault)
    (howner : Visited owner) (hsuffix : input <:+ text) (hbound : input.length ≤ bound) :
    P fault := by
  induction bound generalizing owner input with
  | zero =>
    obtain rfl : input = [] := List.eq_nil_of_length_eq_zero (Nat.le_zero.1 hbound)
    exact Except.error.inj h ▸ hmissing [] hsuffix rfl
  | succ bound ih =>
    rw [items_succ] at h
    by_cases hname : (skipBlank input).takeWhile Text.isNameChar = []
    · rw [if_pos hname] at h
      exact Except.error.inj h ▸ hmissing input hsuffix hname
    rw [if_neg hname] at h
    obtain ⟨hfollowing, hlength⟩ := dropWhile_suffix_and_shorter hname
    cases htarget : relationTarget reg owner
      (.ofList ((skipBlank input).takeWhile Text.isNameChar)) with
    | error other =>
      rw [htarget] at h
      exact Except.error.inj h ▸ hastray owner _ other howner htarget
    | ok target =>
      rw [htarget] at h
      cases hbelow : readBelow reg text bound target
        ((skipBlank input).dropWhile Text.isNameChar) with
      | error other =>
        simp only [bind, Except.bind, hbelow] at h
        obtain rfl := Except.error.inj h
        obtain rfl | ⟨inner, hopen, hread⟩ := readBelow_eq_error hbelow
        · exact hunclosed
        · obtain ⟨hinner, hshorter⟩ := suffix_of_eat? hopen
          exact ih hread (hon owner _ target howner htarget)
            (hinner.trans (hfollowing.trans hsuffix)) (by omega)
      | ok below =>
        simp only [bind, Except.bind, hbelow] at h
        obtain ⟨more, hcomma, hread⟩ := readSiblings_eq_error h
        have hafter := suffix_of_readBelow hbelow
        obtain ⟨hmore, hshorter⟩ := suffix_of_eat? hcomma
        have hshort := hafter.length_le
        exact ih hread howner (hmore.trans (hafter.trans (hfollowing.trans hsuffix))) (by omega)

/-- A missing name is pointed at, however deep in the text it is missing. -/
theorem points_of_items {fault : GraphFault} (h : items reg text bound owner input = .error fault)
    (hsuffix : input <:+ text) (hbound : input.length ≤ bound) : Points text fault :=
  holds_of_items_eq_error (fun _ => True) (fun _ hoffset => GraphFault.noConfusion hoffset)
    (fun _ hrest hnone => points_nameExpected hrest hnone)
    (fun _ _ _ _ htarget => points_of_relationTarget htarget) (fun _ _ _ _ _ => trivial) h
    trivial hsuffix hbound

/-! ### Whole texts -/

theorem skipBlank_eq_nil_iff : skipBlank rest = [] ↔ AllBlank rest := List.dropWhile_eq_nil_iff

theorem exists_writes_of_parse {text : String} (h : parse reg root text = .ok graph) :
    ∃ written, Writes text.toList written ∧ written.Fits reg root ∧
      ∀ chain, graph.HasChain chain ↔ written.HasChain chain := by
  obtain ⟨rest, hitems, hrest⟩ := items_of_parse h
  obtain ⟨tokens, written, hlist, hspells, hfits, hchains⟩ := exists_listing_of_items hitems
  exact ⟨written, ⟨tokens, rest, hlist, hspells, skipBlank_eq_nil_iff.1 hrest⟩, hfits, hchains⟩

theorem exists_parse_of_writes {text : String} (h : Writes text.toList written)
    (hfits : written.Fits reg root) :
    ∃ graph, parse reg root text = .ok graph ∧
      ∀ chain, graph.HasChain chain ↔ written.HasChain chain := by
  obtain ⟨tokens, rest, hlist, hspells, hrest⟩ := h
  obtain ⟨graph, hread, hchains⟩ := complete reg text.toList text.toList.length hlist hspells hfits
    (hrest.eat? _) (hrest.eat? _) (Nat.le_refl _)
  refine ⟨graph, ?_, hchains⟩
  rw [parse]
  simp only [hread, if_pos (skipBlank_eq_nil_iff.2 hrest)]

theorem points_of_parse {text : String} {refusal : FilterError}
    (h : parse reg root text = .error refusal) :
    ∃ fault, refusal = .badGraph text fault ∧ Points text.toList fault := by
  unfold parse at h
  simp only at h
  cases hread : items reg text.toList text.toList.length root text.toList with
  | error fault =>
    simp only [hread] at h
    exact ⟨fault, (Except.error.inj h).symm,
      points_of_items hread List.suffix_rfl (Nat.le_refl _)⟩
  | ok found =>
    simp only [hread] at h
    split at h
    · cases h
    · exact ⟨_, (Except.error.inj h).symm, fun offset hoffset => GraphFault.noConfusion hoffset⟩

/-- **Exactly the words of the grammar are read**, if their names are relations that lead to
entities of the model. The graph leads along the chains that are written and no others. Every other
text is refused in whole; where a name is missing, the offset is the number of bytes before a place
at which no name begins. And reading comes to its end within the length of the text, as no larger
bound changes anything. -/
theorem parse_follows_grammar (reg : Registry) (root : Schema) (text : String) :
    ((∃ graph, parse reg root text = .ok graph) ↔
        ∃ written, Writes text.toList written ∧ written.Fits reg root) ∧
      (∀ graph written, parse reg root text = .ok graph → Writes text.toList written →
        written.Fits reg root → ∀ chain, graph.HasChain chain ↔ written.HasChain chain) ∧
      (∀ refusal, parse reg root text = .error refusal → ∃ fault, refusal = .badGraph text fault ∧
        ∀ offset, fault = .expectedName offset → ∃ before after : String, text = before ++ after ∧
          offset = before.utf8ByteSize ∧ ∀ c ∈ after.toList.head?,
            Text.isBlank c = false ∧ Text.isNameChar c = false) ∧
      ∀ bound, text.toList.length ≤ bound → items reg text.toList bound root text.toList =
        items reg text.toList text.toList.length root text.toList := by
  refine ⟨⟨?_, ?_⟩, ?_, ?_, fun bound hbound => items_of_le hbound⟩
  · rintro ⟨graph, h⟩
    obtain ⟨written, hwrites, hfits, -⟩ := exists_writes_of_parse h
    exact ⟨written, hwrites, hfits⟩
  · rintro ⟨written, hwrites, hfits⟩
    obtain ⟨graph, hread, -⟩ := exists_parse_of_writes hwrites hfits
    exact ⟨graph, hread⟩
  · intro graph written h hwrites hfits
    obtain ⟨other, hread, hchains⟩ := exists_parse_of_writes hwrites hfits
    obtain rfl := Except.ok.inj (h.symm.trans hread)
    exact hchains
  · intro refusal h
    obtain ⟨fault, hfault, hpoints⟩ := points_of_parse h
    refine ⟨fault, hfault, fun offset hoffset => ?_⟩
    obtain ⟨before, after, hsplit, hbytes, hplace⟩ := hpoints offset hoffset
    refine ⟨.ofList before, .ofList after, ?_, ?_, ?_⟩
    · rw [← String.ofList_append, ← hsplit, String.ofList_toList]
    · rw [hbytes, utf8ByteSize_ofList]
    · rw [String.toList_ofList]
      exact hplace

/-- A name is missing after the parenthesis, ten bytes into the text: the blank takes three. -/
example : parse (.ofList [treeRows]) treeRows "\u2003parent(" =
    .error (.badGraph "\u2003parent(" (.expectedName 10)) := by
  decide +kernel

end QuerySieve.FetchGraph
