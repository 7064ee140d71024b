import Mathlib.Data.List.DropRight
import QuerySieve.Proofs.Graph.Entries

/-!
# QuerySieve.Proofs.Graph.Malformed

**A malformed entry is refused**, with two exceptions.

An entry is folded before it is read, so what is refused is the folded text. Without parentheses in
the entry every parenthesis of that text stems from the folding, and the text is read one segment at
a time: either a segment is a name and a relation, or reading stops inside it, before a character
that goes on with nothing (`items_graphText`, an induction on the segments).

The exceptions are entries that do not look in folded form like what they are. Empty segments at the
end are gone from it (`graphText_append`), and a segment with parentheses in it is not told from
several segments that have been folded. What decides in every case is whether the folded text, which
has no commas, writes a chain that can be asked for (`exists_parse_segments_iff`).
-/

namespace QuerySieve

/-- The segment is not a relation of the entity that the segments before it lead to. -/
def Registry.Strays (reg : Registry) (root : Schema) (before : List String) (segment : String) :
    Prop :=
  ∀ owner, reg.Reaches root before owner → owner.relationAt? segment = none

/-- A way along a chain does not stray anywhere on it. -/
theorem Registry.Reaches.not_strays {reg : Registry} {root reached : Schema}
    {before after : List String} {segment : String}
    (h : reg.Reaches root (before ++ segment :: after) reached) :
    ¬ reg.Strays root before segment := by
  induction before generalizing root with
  | nil =>
    cases h with
    | along hrelation htarget hrest =>
      intro hstrays
      rw [hstrays root (.here root)] at hrelation
      cases hrelation
  | cons name before ih =>
    cases h with
    | along hrelation htarget hrest =>
      intro hstrays
      exact ih hrest fun owner howner => hstrays owner (.along hrelation htarget howner)

/-- A graph with legible names leads along relations. -/
theorem Forest.Legible.reaches {reg : Registry} {owner : Schema} {a : Forest} {chain : List String}
    (h : a.Legible reg owner) (hchain : a.HasChain chain) :
    ∃ reached, reg.Reaches owner chain reached := by
  induction a generalizing owner chain with
  | nil =>
    cases chain with
    | nil => exact ⟨owner, .here owner⟩
    | cons first chain => exact absurd hchain Forest.not_hasChain_nil
  | node name below siblings ihBelow ihSiblings =>
    cases chain with
    | nil => exact ⟨owner, .here owner⟩
    | cons first chain =>
      obtain ⟨⟨-, target, htarget, hbelow⟩, hsiblings⟩ := h
      obtain ⟨rfl, hrest⟩ | hrest := Forest.hasChain_node.1 hchain
      · obtain ⟨relation, hrelation, hfound⟩ := FetchGraph.relationTarget_eq_ok_iff.1 htarget
        obtain ⟨reached, hreached⟩ := ihBelow hbelow hrest
        exact ⟨reached, .along hrelation hfound hreached⟩
      · exact ihSiblings hsiblings hrest

namespace FetchGraph

variable {reg : Registry} {owner root : Schema} {text input rest tail following : List Char}
variable {bound : Nat} {graph : FetchGraph} {segment : String} {path : List String}
variable {tokens : List Token}

/-! ### Reading one segment -/

/-- A segment with no mark in it and no white space at its ends. -/
structure IsPlain (segment : String) : Prop where
  unmarked : ∀ c ∈ segment.toList, ¬ IsMark c
  first : ∀ c ∈ segment.toList.head?, ¬ Text.isBlank c
  last : ∀ c ∈ segment.toList.getLast?, ¬ Text.isBlank c

theorem isPlain_trim {piece : String} (h : ∀ c ∈ (Text.trim piece).toList, ¬ IsMark c) :
    IsPlain (Text.trim piece) := by
  have htrim : (Text.trim piece).toList = Text.trimChars piece.toList := String.toList_ofList
  exact ⟨h, fun c hc => Text.head?_trimChars (htrim ▸ hc),
    fun c hc => Text.getLast?_trimChars (htrim ▸ hc)⟩

/-- What comes next in the text is neither a mark nor the end. -/
def Stuck (rest : List Char) : Prop := ∃ c ∈ (skipBlank rest).head?, ¬ IsMark c

theorem Stuck.eat? {mark : Char} (h : Stuck rest) (hmark : IsMark mark) :
    eat? mark rest = none := by
  obtain ⟨c, hc, hnot⟩ := h
  obtain ⟨cs, hcs⟩ := List.head?_eq_some_iff.1 hc
  have hne : c ≠ mark := by
    rintro rfl
    exact hnot hmark
  rw [FetchGraph.eat?, hcs]
  exact if_neg hne

/-- Inside a segment reading cannot go on. -/
theorem IsPlain.stuck (h : IsPlain segment) {remaining : List Char} (hne : remaining ≠ [])
    (hremaining : remaining <:+ segment.toList) (following : List Char) :
    Stuck (remaining ++ following) := by
  have hlast : remaining.getLast hne ∈ segment.toList.getLast? := by
    obtain ⟨before, hbefore⟩ := hremaining
    rw [← hbefore, List.getLast?_append, List.getLast?_eq_some_getLast hne]
    rfl
  have hskip : skipBlank remaining ≠ [] := fun hnil =>
    h.last _ hlast (skipBlank_eq_nil_iff.1 hnil _ (List.getLast_mem hne))
  obtain ⟨c, cs, hcs⟩ := List.exists_cons_of_ne_nil hskip
  have hc : c ∈ skipBlank remaining := hcs ▸ List.mem_cons_self
  refine ⟨c, ?_, h.unmarked c (hremaining.subset ((List.dropWhile_suffix _).subset hc))⟩
  rw [skipBlank, List.dropWhile_append, ← skipBlank, hcs]
  rfl

theorem skipBlank_eq_self {cs : List Char} (h : ∀ c ∈ cs.head?, ¬ Text.isBlank c) :
    skipBlank cs = cs := by
  cases cs with
  | nil => rfl
  | cons c cs => exact List.dropWhile_cons_of_neg (h c rfl)

theorem IsMark.not_isBlank {c : Char} (h : IsMark c) : ¬ Text.isBlank c := by
  rcases h with rfl | rfl | rfl <;> decide

/-- A segment is read as the name that it is, or reading stops inside it. -/
theorem items_segment (h : IsPlain segment) (hfollowing : ∀ c ∈ following.head?, IsMark c)
    (hread : items reg text (bound + 1) owner (segment.toList ++ following) = .ok (graph, rest)) :
    Stuck rest ∨ IsName segment ∧ ∃ target children after,
      relationTarget reg owner segment = .ok target ∧
        readBelow reg text bound target following = .ok (children, after) ∧
        readSiblings reg text bound owner (single segment children) after = .ok (graph, rest) := by
  obtain ⟨name, target, children, after, hname, hne, htarget, hbelow, hsiblings⟩ :=
    items_eq_ok hread
  by_cases hempty : segment.toList = []
  · -- where a mark or the end is, no name begins
    rw [hempty, List.nil_append,
      skipBlank_eq_self fun c hc => (hfollowing c hc).not_isBlank] at hname
    refine absurd ?_ hne
    rw [← hname]
    cases following with
    | nil => rfl
    | cons c cs => simp [(hfollowing c rfl).isNameChar]
  by_cases hremaining : segment.toList.dropWhile Text.isNameChar = []
  · have hsegment : IsName segment := ⟨hempty, List.dropWhile_eq_nil_iff.1 hremaining⟩
    obtain ⟨hskip, htake, hdrop⟩ :=
      hsegment.span fun c hc => (hfollowing c hc).isNameChar
    rw [hskip, htake] at hname
    rw [hskip, hdrop] at hbelow
    rw [← hname, String.ofList_toList] at htarget hsiblings
    exact .inr ⟨hsegment, target, children, after, htarget, hbelow, hsiblings⟩
  · have hstuck : Stuck (segment.toList.dropWhile Text.isNameChar ++ following) :=
      h.stuck hremaining (List.dropWhile_suffix _) following
    have hskip : skipBlank (segment.toList ++ following) = segment.toList ++ following := by
      refine skipBlank_eq_self fun c hc => h.first c ?_
      rwa [List.head?_append_of_ne_nil _ hempty] at hc
    rw [hskip, List.dropWhile_append, if_neg (by simpa using hremaining), readBelow_eq_ok_iff,
      hstuck.eat? (.inl rfl)] at hbelow
    obtain ⟨-, -, rfl⟩ | ⟨inner, closing, hopen, -⟩ := hbelow
    · rw [readSiblings_eq_ok_iff, hstuck.eat? (.inr (.inr rfl))] at hsiblings
      obtain ⟨-, -, rfl⟩ | ⟨more, others, hcomma, -⟩ := hsiblings
      · exact .inl hstuck
      · cases hcomma
    · cases hopen

/-! ### Reading a folded entry -/

theorem EndsList.isMark {c : Char} (h : EndsList tail) (hc : c ∈ tail.head?) : IsMark c := by
  obtain ⟨cs, hcs⟩ := List.head?_eq_some_iff.1 hc
  exact .inr (.inl (h c cs hcs))

/-- After the last item of a list there is nothing to read but the end. -/
theorem EndsList.readSiblings (h : EndsList tail) {item : FetchGraph}
    (hread : readSiblings reg text bound owner item tail = .ok (graph, rest)) : rest = tail := by
  rw [readSiblings_eq_ok_iff, h.eat? (by decide)] at hread
  obtain ⟨-, -, rfl⟩ | ⟨more, others, hcomma, -⟩ := hread
  · rfl
  · cases hcomma

namespace Embeddable

theorem one {target : Schema} (hname : IsName segment)
    (htarget : relationTarget reg owner segment = .ok target) : Embeddable reg owner [segment] := by
  obtain ⟨relation, hrelation, hfound⟩ := relationTarget_eq_ok_iff.1 htarget
  exact ⟨List.cons_ne_nil _ _, List.forall_mem_cons.2 ⟨hname, by simp⟩, target,
    .along hrelation hfound (.here target)⟩

theorem cons {target : Schema} (hname : IsName segment)
    (htarget : relationTarget reg owner segment = .ok target) (h : Embeddable reg target path) :
    Embeddable reg owner (segment :: path) := by
  obtain ⟨relation, hrelation, hfound⟩ := relationTarget_eq_ok_iff.1 htarget
  obtain ⟨reached, hreaches⟩ := h.reaches
  exact ⟨List.cons_ne_nil _ _, List.forall_mem_cons.2 ⟨hname, h.names⟩, reached,
    .along hrelation hfound hreaches⟩

end Embeddable

theorem items_last (h : IsPlain segment) (htail : EndsList tail)
    (hread : items reg text (bound + 1) owner (segment.toList ++ tail) = .ok (graph, rest)) :
    Stuck rest ∨ rest = tail ∧ Embeddable reg owner [segment] := by
  obtain hstuck | ⟨hname, target, children, after, htarget, hbelow, hsiblings⟩ :=
    items_segment h (fun c hc => htail.isMark hc) hread
  · exact .inl hstuck
  · rw [readBelow_eq_ok_iff, htail.eat? (by decide)] at hbelow
    obtain ⟨-, -, rfl⟩ | ⟨inner, closing, hopen, -⟩ := hbelow
    · exact .inr ⟨htail.readSiblings hsiblings, .one hname htarget⟩
    · cases hopen

/-- What is read of a segment with more segments inside, if the reading of these is known. -/
theorem items_nested (h : IsPlain segment) (htail : EndsList tail) {inner : List Char}
    (hinner : ∀ {target children closing},
      items reg text bound target (inner ++ ')' :: tail) = .ok (children, closing) →
        Stuck closing ∨ closing = ')' :: tail ∧ Embeddable reg target path)
    (hread : items reg text (bound + 1) owner
      (segment.toList ++ '(' :: (inner ++ ')' :: tail)) = .ok (graph, rest)) :
    Stuck rest ∨ rest = tail ∧ Embeddable reg owner (segment :: path) := by
  have hopens : ∀ c ∈ ('(' :: (inner ++ ')' :: tail)).head?, IsMark c := by
    rintro c ⟨⟩
    exact .inl rfl
  obtain hstuck | ⟨hname, target, children, after, htarget, hbelow, hsiblings⟩ :=
    items_segment h hopens hread
  · exact .inl hstuck
  · rw [readBelow_eq_ok_iff, IsMark.eat? (.inl rfl), if_pos rfl] at hbelow
    obtain ⟨hopen, -⟩ | ⟨between, closing, hopen, hbetween, hclose⟩ := hbelow
    · cases hopen
    · obtain rfl := Option.some.inj hopen
      obtain hstuck | ⟨rfl, hpath⟩ := hinner hbetween
      · -- the parenthesis is not closed where the inner list has stopped
        rw [hstuck.eat? (.inr (.inl rfl))] at hclose
        cases hclose
      · rw [IsMark.eat? (.inr (.inl rfl)), if_pos rfl] at hclose
        obtain rfl := Option.some.inj hclose
        exact .inr ⟨htail.readSiblings hsiblings, .cons hname htarget hpath⟩

/-- **What is folded is read segment by segment.** If reading comes to the end of it, then its
segments are a chain that can be asked for. -/
theorem items_graphText (hplain : ∀ segment ∈ path, IsPlain segment) (hne : path ≠ [])
    (hlast : ∀ segment ∈ path.getLast?, segment ≠ "") (htail : EndsList tail)
    (hread : items reg text bound owner ((EmbeddedPath.graphText path).toList ++ tail) =
      .ok (graph, rest)) :
    Stuck rest ∨ rest = tail ∧ Embeddable reg owner path := by
  induction path generalizing owner bound tail graph rest with
  | nil => exact absurd rfl hne
  | cons segment path ih =>
    obtain ⟨hsegment, hpath⟩ := List.forall_mem_cons.1 hplain
    cases bound with
    | zero => cases hread
    | succ bound =>
      cases path with
      | nil => exact items_last hsegment htail hread
      | cons next path =>
        have hlastNext : ∀ segment ∈ (next :: path).getLast?, segment ≠ "" := by
          simpa using hlast
        have hfolded : EmbeddedPath.graphText (next :: path) ≠ "" := by
          intro h
          exact hlastNext _ (List.getLast?_eq_some_getLast (List.cons_ne_nil _ _))
            (EmbeddedPath.graphText_eq_empty_iff.1 h _ (List.getLast_mem _))
        have hfold : (EmbeddedPath.graphText (segment :: next :: path)).toList ++ tail =
            segment.toList ++ '(' ::
              ((EmbeddedPath.graphText (next :: path)).toList ++ ')' :: tail) := by
          simp [EmbeddedPath.graphText_cons_of_ne hfolded]
        rw [hfold] at hread
        refine items_nested hsegment htail (fun hinner => ?_) hread
        exact ih hpath (List.cons_ne_nil _ _) hlastNext
          (fun c cs h => (List.cons.inj h).1.symm) hinner

theorem embeddable_of_parse (hplain : ∀ segment ∈ path, IsPlain segment) (hne : path ≠ [])
    (hlast : ∀ segment ∈ path.getLast?, segment ≠ "")
    (h : parse reg root (EmbeddedPath.graphText path) = .ok graph) : Embeddable reg root path := by
  obtain ⟨rest, hitems, hrest⟩ := items_of_parse h
  have hends : EndsList [] := fun c cs h => by cases h
  rw [← List.append_nil (EmbeddedPath.graphText path).toList] at hitems
  obtain ⟨c, hc, -⟩ | ⟨-, hpath⟩ := items_graphText hplain hne hlast hends hitems
  · rw [hrest] at hc
    cases hc
  · exact hpath

/-! ### Empty segments at the end -/

/-- Empty segments at the end are not seen in folded form. -/
theorem graphText_append {trailing : List String} (h : ∀ segment ∈ trailing, segment = "")
    (path : EmbeddedPath) :
    EmbeddedPath.graphText (path ++ trailing) = EmbeddedPath.graphText path := by
  have hnothing : trailing.foldr
      (fun outer inner => if inner = "" then outer else outer ++ "(" ++ inner ++ ")") "" = "" :=
    EmbeddedPath.graphText_eq_empty_iff.2 h
  rw [EmbeddedPath.graphText, List.foldr_append, hnothing, EmbeddedPath.graphText]

theorem exists_trailing (path : List String) : ∃ core trailing, path = core ++ trailing ∧
    (∀ segment ∈ trailing, segment = "") ∧ ∀ segment ∈ core.getLast?, segment ≠ "" := by
  refine ⟨path.rdropWhile (· = ""), path.rtakeWhile (· = ""),
    List.rdropWhile_append_rtakeWhile.symm, ?_, ?_⟩
  · intro segment hsegment
    simpa using List.mem_rtakeWhile_imp hsegment
  · intro segment hsegment
    obtain ⟨hne, rfl⟩ := List.mem_getLast?_eq_getLast hsegment
    simpa using List.rdropWhile_last_not _ _ hne

/-- Of a segment in front of which something is written, nothing is left in folded form: it and
what is after it are empty. -/
def Trailing (before : List String) (segment : String) (after : List String) : Prop :=
  segment = "" ∧ (∀ next ∈ after, next = "") ∧ ∃ earlier ∈ before, earlier ≠ ""

/-- If the folded segments are accepted, then none of them strays that is not trailing. -/
theorem trailing_of_strays {before after : List String}
    (hplain : ∀ next ∈ before ++ segment :: after, IsPlain next)
    (h : parse reg root (EmbeddedPath.graphText (before ++ segment :: after)) = .ok graph)
    (hstrays : reg.Strays root before segment) : Trailing before segment after := by
  obtain ⟨core, trailing, hsegments, htrailing, hlast⟩ :=
    exists_trailing (before ++ segment :: after)
  rw [hsegments, graphText_append htrailing] at h
  have hne : core ≠ [] := by
    rintro rfl
    obtain ⟨refusal, hrefused⟩ := parse_empty reg root
    cases hrefused.symm.trans h
  have hcore : ∀ next ∈ core, IsPlain next := fun next hnext =>
    hplain next (hsegments ▸ List.mem_append_left _ hnext)
  have hwritten : ∃ earlier ∈ core, earlier ≠ "" :=
    ⟨core.getLast hne, List.getLast_mem hne, hlast _ (List.getLast?_eq_some_getLast hne)⟩
  obtain ⟨reached, hreaches⟩ := (embeddable_of_parse hcore hne hlast h).reaches
  obtain ⟨rest, rfl, hrest⟩ | ⟨rest, rfl, rfl⟩ := List.append_eq_append_iff.1 hsegments
  · cases rest with
    | nil =>
      obtain rfl : segment :: after = trailing := hrest
      obtain ⟨hsegment, hafter⟩ := List.forall_mem_cons.1 htrailing
      rw [List.append_nil] at hwritten
      exact ⟨hsegment, hafter, hwritten⟩
    | cons next rest =>
      obtain rfl : segment = next := (List.cons.inj hrest).1
      exact absurd hstrays hreaches.not_strays
  · obtain ⟨-, hafter⟩ := List.forall_mem_append.1 htrailing
    obtain ⟨hsegment, hafter⟩ := List.forall_mem_cons.1 hafter
    obtain ⟨earlier, hearlier, hne⟩ := hwritten
    exact ⟨hsegment, hafter, earlier, List.mem_append_left _ hearlier, hne⟩

/-! ### Texts without commas -/

namespace Spells

theorem mem_of_mark {c : Char} (h : Spells rest tokens input) (hmark : .mark c ∈ tokens) :
    c ∈ input := by
  induction h with
  | done => cases hmark
  | name _ _ _ _ ih =>
    obtain hhead | hmark := List.mem_cons.1 hmark
    · cases hhead
    · exact List.mem_append_right _ (List.mem_append_right _ (ih hmark))
  | mark _ _ ih =>
    obtain hhead | hmark := List.mem_cons.1 hmark
    · cases hhead
      exact List.mem_append_right _ List.mem_cons_self
    · exact List.mem_append_right _ (List.mem_cons_of_mem _ (ih hmark))

theorem isName_of_mem {name : String} (h : Spells rest tokens input)
    (hname : .name name ∈ tokens) : IsName name := by
  induction h with
  | done => cases hname
  | name _ hfirst _ _ ih =>
    obtain hhead | hname := List.mem_cons.1 hname
    · cases hhead
      exact hfirst
    · exact ih hname
  | mark _ _ ih =>
    obtain hhead | hname := List.mem_cons.1 hname
    · cases hhead
    · exact ih hname

end Spells

mutual

/-- An item without commas writes a chain. -/
theorem Item.exists_chain {tokens : List Token} {item : Forest} :
    Item tokens item → .mark ',' ∉ tokens →
      ∃ chain, chain ≠ [] ∧ item = (ofChain chain).forest ∧ ∀ name ∈ chain, .name name ∈ tokens
  | .plain name, _ => ⟨[name], List.cons_ne_nil _ _, rfl, by simp⟩
  | .nested name hbelow, hcomma => by
    obtain ⟨chain, -, rfl, hnames⟩ := hbelow.exists_chain (by simp_all)
    refine ⟨name :: chain, List.cons_ne_nil _ _, rfl, ?_⟩
    simp_all

theorem Listing.exists_chain {tokens : List Token} {written : Forest} :
    Listing tokens written → .mark ',' ∉ tokens →
      ∃ chain, chain ≠ [] ∧ written = (ofChain chain).forest ∧
        ∀ name ∈ chain, .name name ∈ tokens
  | .last hitem, hcomma => hitem.exists_chain hcomma
  | .more hitem hothers, hcomma => by simp at hcomma

end

theorem fits_ofChain {chain : List String} :
    (ofChain chain).forest.Fits reg owner ↔ ∃ reached, reg.Reaches owner chain reached := by
  induction chain generalizing owner with
  | nil => exact iff_of_true trivial ⟨owner, .here owner⟩
  | cons name chain ih =>
    constructor
    · rintro ⟨⟨relation, target, hrelation, htarget, hbelow⟩, -⟩
      obtain ⟨reached, hreached⟩ := ih.1 hbelow
      exact ⟨reached, .along hrelation htarget hreached⟩
    · rintro ⟨reached, hreaches⟩
      cases hreaches with
      | along hrelation htarget hrest =>
        exact ⟨⟨_, _, hrelation, htarget, ih.2 ⟨reached, hrest⟩⟩, trivial⟩

/-- A text without commas is read as a chain that can be asked for, if it writes one. -/
theorem parse_eq_ok_iff_of_comma {text : String} (hcomma : ',' ∉ text.toList) :
    parse reg root text = .ok graph ↔ ∃ chain, Embeddable reg root chain ∧
      Writes text.toList (ofChain chain).forest ∧ graph = ofChain chain := by
  constructor
  · intro h
    obtain ⟨written, ⟨tokens, rest, hlist, hspells, hrest⟩, hfits, hchains⟩ :=
      exists_writes_of_parse h
    obtain ⟨chain, hne, rfl, hnames⟩ :=
      hlist.exists_chain fun hmark => hcomma (hspells.mem_of_mark hmark)
    exact ⟨chain, ⟨hne, fun name hname => hspells.isName_of_mem (hnames name hname),
      fits_ofChain.1 hfits⟩, ⟨tokens, rest, hlist, hspells, hrest⟩, ext_chains hchains⟩
  · rintro ⟨chain, hchain, hwrites, rfl⟩
    obtain ⟨found, hfound, hchains⟩ :=
      exists_parse_of_writes hwrites (fits_ofChain.2 hchain.reaches)
    rw [hfound, ext_chains hchains]

/-- Folding puts in parentheses and nothing else. -/
theorem mem_graphText {c : Char} (h : c ∈ (EmbeddedPath.graphText path).toList) :
    c = '(' ∨ c = ')' ∨ ∃ segment ∈ path, c ∈ segment.toList := by
  induction path with
  | nil => cases h
  | cons segment path ih =>
    rw [List.exists_mem_cons_iff]
    by_cases hnothing : EmbeddedPath.graphText path = ""
    · rw [EmbeddedPath.graphText_cons_of_eq hnothing] at h
      exact .inr (.inr (.inl h))
    · rw [EmbeddedPath.graphText_cons_of_ne hnothing] at h
      simp only [String.toList_append, List.mem_append] at h
      obtain ((hsegment | hopen) | hpath) | hclose := h
      · exact .inr (.inr (.inl hsegment))
      · exact .inl (List.mem_singleton.1 hopen)
      · obtain hopen | hclose | hpath := ih hpath
        · exact .inl hopen
        · exact .inr (.inl hclose)
        · exact .inr (.inr (.inr hpath))
      · exact .inr (.inl (List.mem_singleton.1 hclose))

/-! ### Refusals -/

/-- What is refused is refused for one of the paths. -/
theorem exists_parse_eq_error {start : FetchGraph} {paths : List EmbeddedPath}
    {refusal : FilterError} (h : mergePaths reg root start paths = .error refusal) :
    ∃ path ∈ paths, parse reg root path.graphText = .error refusal := by
  induction paths generalizing start with
  | nil => cases h
  | cons path paths ih =>
    rw [mergePaths] at h
    cases hpart : parse reg root path.graphText with
    | error error =>
      simp only [hpart] at h
      obtain rfl := Except.error.inj h
      exact ⟨path, List.mem_cons_self, hpart⟩
    | ok part =>
      simp only [hpart] at h
      obtain ⟨other, hother, hrefused⟩ := ih h
      exact ⟨other, List.mem_cons_of_mem _ hother, hrefused⟩

/-- Whatever is refused is refused as the text of a graph. -/
theorem mergePaths_eq_error {start : FetchGraph} {paths : List EmbeddedPath} {refusal : FilterError}
    (h : mergePaths reg root start paths = .error refusal) :
    ∃ text fault, refusal = .badGraph text fault := by
  obtain ⟨path, -, hpath⟩ := exists_parse_eq_error h
  obtain ⟨fault, hfault, -⟩ := points_of_parse hpath
  exact ⟨_, fault, hfault⟩

theorem exists_mergePaths_iff {start : FetchGraph} {paths : List EmbeddedPath} :
    (∃ graph, mergePaths reg root start paths = .ok graph) ↔
      ∀ path ∈ paths, ∃ part, parse reg root path.graphText = .ok part := by
  induction paths generalizing start with
  | nil => simp [mergePaths]
  | cons path paths ih =>
    rw [List.forall_mem_cons, mergePaths]
    cases hpart : parse reg root path.graphText with
    | error refusal => simp
    | ok part => simp [ih]

/-- What stands between the dots of an entry. -/
def segments (entry : String) : EmbeddedPath := (Text.split '.' entry).map Text.trim

variable {raw entry : String}

theorem mem_of_mem_segments {c : Char} (hentry : entry ∈ Text.split ',' raw)
    (hsegment : segment ∈ segments entry) (hc : c ∈ segment.toList) :
    c ∈ entry.toList ∧ c ≠ ',' := by
  obtain ⟨piece, hpiece, rfl⟩ := List.mem_map.1 hsegment
  have hentryChar : c ∈ entry.toList := (Text.mem_of_mem_split hpiece (Text.mem_of_mem_trim hc)).1
  exact ⟨hentryChar, (Text.mem_of_mem_split hentry hentryChar).2⟩

/-- The segments of an entry without parentheses are plain. -/
theorem isPlain_of_mem_segments (hentry : entry ∈ Text.split ',' raw)
    (hopen : '(' ∉ entry.toList) (hclose : ')' ∉ entry.toList) :
    ∀ segment ∈ segments entry, IsPlain segment := by
  intro segment hsegment
  obtain ⟨piece, -, rfl⟩ := List.mem_map.1 hsegment
  refine isPlain_trim fun c hc hmark => ?_
  obtain ⟨hentryChar, hcomma⟩ := mem_of_mem_segments hentry hsegment hc
  obtain rfl | rfl | rfl := hmark
  · exact hopen hentryChar
  · exact hclose hentryChar
  · exact hcomma rfl

/-- Each entry that is not blank is read for itself. -/
theorem exists_ofEmbedded_iff : (∃ graph, ofEmbedded reg root raw = .ok graph) ↔
    ∀ entry ∈ Text.split ',' raw, ¬ Text.isBlankText entry →
      ∃ part, parse reg root (segments entry).graphText = .ok part := by
  rw [ofEmbedded, exists_mergePaths_iff, List.forall_mem_filterMap]
  refine forall₂_congr fun entry _ => ?_
  by_cases hblank : Text.isBlankText entry
  · simp [ofEntry?_eq, hblank]
  · simp [ofEntry?_eq, hblank, segments]

/-- An entry in folded form is read as a chain, if it writes one. -/
theorem exists_parse_segments_iff (hentry : entry ∈ Text.split ',' raw) :
    (∃ part, parse reg root (segments entry).graphText = .ok part) ↔
      ∃ chain, Embeddable reg root chain ∧
        Writes (segments entry).graphText.toList (ofChain chain).forest := by
  have hcomma : ',' ∉ (segments entry).graphText.toList := by
    intro hc
    obtain hopen | hclose | ⟨segment, hsegment, hc⟩ := mem_graphText hc
    · exact absurd hopen (by decide)
    · exact absurd hclose (by decide)
    · exact (mem_of_mem_segments hentry hsegment hc).2 rfl
  simp only [parse_eq_ok_iff_of_comma hcomma]
  constructor
  · rintro ⟨part, chain, hchain, hwrites, -⟩
    exact ⟨chain, hchain, hwrites⟩
  · rintro ⟨chain, hchain, hwrites⟩
    exact ⟨_, chain, hchain, hwrites, rfl⟩

/-- A request of one entry is read as the text that its segments are folded into. -/
theorem ofEmbedded_of_entry (hcomma : ',' ∉ raw.toList) (hblank : ¬ Text.isBlankText raw) :
    ofEmbedded reg root raw = parse reg root (segments raw).graphText := by
  have hsplit : Text.split ',' raw = [raw] := by
    rw [Text.split, Text.splitChars_of_not_mem hcomma, List.map_singleton, String.ofList_toList]
  rw [ofEmbedded, hsplit, List.filterMap_cons_some ((ofEntry?_eq raw).trans (if_neg hblank)),
    List.filterMap_nil, mergePaths, segments]
  cases parse reg root (EmbeddedPath.graphText ((Text.split '.' raw).map Text.trim)) with
  | error refusal => rfl
  | ok part => exact congrArg Except.ok (empty_merge part)

/-- A dot at the end of an entry changes nothing. -/
theorem ofEmbedded_append_dot (hcomma : ',' ∉ raw.toList) (hblank : ¬ Text.isBlankText raw) :
    ofEmbedded reg root (raw ++ ".") = ofEmbedded reg root raw := by
  have hsegments : segments (raw ++ ".") = segments raw ++ [""] := by
    have h : Text.split '.' (raw ++ "." ++ "") = Text.split '.' raw ++ Text.split '.' "" :=
      Text.split_append raw ""
    rw [String.append_empty] at h
    rw [segments, h, List.map_append]
    rfl
  have hcommaDot : ',' ∉ (raw ++ ".").toList := by
    simpa using hcomma
  have hblankDot : ¬ Text.isBlankText (raw ++ ".") := fun h =>
    absurd (List.all_eq_true.1 h '.' (by simp)) (by decide)
  rw [ofEmbedded_of_entry hcommaDot hblankDot, ofEmbedded_of_entry hcomma hblank, hsegments,
    graphText_append (by simp)]

/-- An entry of one segment is read as the text of a graph. -/
theorem ofEmbedded_of_segment (hcomma : ',' ∉ raw.toList) (hdot : '.' ∉ raw.toList)
    (hblank : ¬ Text.isBlankText raw) :
    ofEmbedded reg root raw = parse reg root (Text.trim raw) := by
  rw [ofEmbedded_of_entry hcomma hblank, segments, Text.split, Text.splitChars_of_not_mem hdot,
    List.map_singleton, String.ofList_toList, List.map_singleton,
    EmbeddedPath.graphText_cons_of_eq rfl]

/-- **A malformed entry is refused.** If a segment of an entry is not a relation of the entity that
the segments before it lead to, then the request is refused as the text of a graph, unless there are
parentheses in the entry or the segment is trailing. All refusals are of this kind. A request is
accepted exactly if each of its entries that is not blank writes, in folded form, a chain that can
be asked for; so what is accepted leads along relations only. What is excepted above is accepted: an
entry with one more dot at its end is the entry without it, and one segment with parentheses in it
is read as they are. -/
theorem malformed_entry_is_refused (reg : Registry) (root : Schema) (raw : String) :
    (∀ entry ∈ Text.split ',' raw, ¬ Text.isBlankText entry →
      '(' ∉ entry.toList → ')' ∉ entry.toList →
        ∀ before segment after, segments entry = before ++ segment :: after →
          reg.Strays root before segment → ¬ Trailing before segment after →
            ∃ text fault, ofEmbedded reg root raw = .error (.badGraph text fault)) ∧
      (∀ refusal, ofEmbedded reg root raw = .error refusal →
        ∃ text fault, refusal = .badGraph text fault) ∧
      ((∃ graph, ofEmbedded reg root raw = .ok graph) ↔
        ∀ entry ∈ Text.split ',' raw, ¬ Text.isBlankText entry → ∃ chain,
          Embeddable reg root chain ∧
            Writes (segments entry).graphText.toList (ofChain chain).forest) ∧
      (∀ graph, ofEmbedded reg root raw = .ok graph →
        ∀ chain, graph.HasChain chain → ∃ reached, reg.Reaches root chain reached) ∧
      (',' ∉ raw.toList → ¬ Text.isBlankText raw →
        ofEmbedded reg root (raw ++ ".") = ofEmbedded reg root raw ∧
        ('.' ∉ raw.toList → ofEmbedded reg root raw = parse reg root (Text.trim raw))) := by
  refine ⟨?_, fun refusal h => mergePaths_eq_error h, ?_, ?_, ?_⟩
  · intro entry hentry hblank hopen hclose before segment after hsegments hstrays hnot
    cases hread : ofEmbedded reg root raw with
    | error refusal =>
      obtain ⟨text, fault, rfl⟩ := mergePaths_eq_error hread
      exact ⟨text, fault, rfl⟩
    | ok graph =>
      obtain ⟨part, hpart⟩ := exists_ofEmbedded_iff.1 ⟨graph, hread⟩ entry hentry hblank
      have hplain := isPlain_of_mem_segments hentry hopen hclose
      rw [hsegments] at hpart hplain
      exact absurd (trailing_of_strays hplain hpart hstrays) hnot
  · rw [exists_ofEmbedded_iff]
    exact forall₃_congr fun entry hentry _ => exists_parse_segments_iff hentry
  · intro graph h chain hchain
    exact (Obtained.embedded h).legible.reaches hchain
  · intro hcomma hblank
    exact ⟨ofEmbedded_append_dot hcomma hblank,
      fun hdot => ofEmbedded_of_segment hcomma hdot hblank⟩

theorem eq_treeRows_of_reaches {reached : Schema} (hroot : root = treeRows)
    (h : (Registry.ofList [treeRows]).Reaches root path reached) : reached = treeRows := by
  induction h with
  | here owner => exact hroot
  | along _ htarget _ ih =>
    have hmem := List.mem_singleton.1 (Dict.get?_eq_some_iff.1 htarget)
    exact ih (congrArg Prod.snd hmem)

/-- In a tree nothing strays but what is neither the parent nor the children. -/
theorem strays_treeRows (h : treeRows.relationAt? segment = none) (before : List String) :
    (Registry.ofList [treeRows]).Strays treeRows before segment := by
  intro owner howner
  rw [eq_treeRows_of_reaches rfl howner, h]

/-- The entry in the middle is refused, and so is the request, whatever else is in it. -/
theorem malformed_entry_is_refused_of_treeRows :
    " parent .nope. children" ∈ Text.split ',' "children, parent .nope. children,parent" ∧
      (Registry.ofList [treeRows]).Strays treeRows ["parent"] "nope" ∧
      ∃ text fault, ofEmbedded (.ofList [treeRows]) treeRows
        "children, parent .nope. children,parent" = .error (.badGraph text fault) := by
  have hentry : " parent .nope. children" ∈
      Text.split ',' "children, parent .nope. children,parent" := by decide
  have hstrays : (Registry.ofList [treeRows]).Strays treeRows ["parent"] "nope" :=
    strays_treeRows rfl ["parent"]
  refine ⟨hentry, hstrays, ?_⟩
  refine (malformed_entry_is_refused _ _ _).1 _ hentry (by decide) (by decide) (by decide)
    ["parent"] "nope" ["children"] rfl hstrays ?_
  rintro ⟨hempty, -⟩
  exact absurd hempty (by decide)

/-- Neither the empty segment after the dot nor the segment with the parentheses is a relation of a
row of a tree, and both entries are accepted. -/
theorem trailing_dot_is_accepted :
    (Text.split ',' "parent." = ["parent."] ∧ ¬ Text.isBlankText "parent." ∧
      segments "parent." = ["parent", ""] ∧
      (Registry.ofList [treeRows]).Strays treeRows ["parent"] "" ∧
      ofEmbedded (.ofList [treeRows]) treeRows "parent." = .ok (single "parent" empty)) ∧
    (Text.split ',' "parent(children)" = ["parent(children)"] ∧
      ¬ Text.isBlankText "parent(children)" ∧
      segments "parent(children)" = ["parent(children)"] ∧
      (Registry.ofList [treeRows]).Strays treeRows [] "parent(children)" ∧
      ofEmbedded (.ofList [treeRows]) treeRows "parent(children)" =
        .ok (single "parent" (single "children" empty))) := by
  refine ⟨⟨rfl, by decide, rfl, strays_treeRows rfl _, by decide +kernel⟩, rfl, by decide, rfl, ?_⟩
  exact ⟨strays_treeRows rfl _, by decide +kernel⟩

end FetchGraph

end QuerySieve
