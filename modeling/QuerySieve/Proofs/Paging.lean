import QuerySieve.Page

/-!
# QuerySieve.Proofs.Paging

**Walking the pages** from the first one on, for as long as a page says that there is a next.

A `Listing` is what a reader pages through: the rows in their order, the size asked for and the
limits. `Listing.Visited` says which page numbers the walk comes to and `Listing.Walk` what it has
collected when it stops. One invariant carries everything: the offset of a visited page does not
pass the end of the rows (`Visited.offset_le`). So every visited page can be asked for, and since a
page has at least one row of room, the offset grows until the walk stops.
-/

namespace QuerySieve

/-- Among rows that a database can count the cap is never met. -/
theorem Page.hasNext_iff {α : Type} {page : Page α}
    (htotal : (page.info.total : Int) ≤ Text.int64Max) :
    page.hasNext ↔ page.info.offset + page.items.length < page.info.total := by
  have hbounds : Text.int64Max ≤ Text.nat64Max := by decide
  rw [Page.hasNext, decide_eq_true_eq]
  omega

/-- At least one row is granted, whatever is asked for and whatever the limits are. -/
theorem PageLimits.one_le_clamp (limits : PageLimits) (requested : Option Nat) :
    1 ≤ limits.clamp requested :=
  Nat.le_max_left _ _

theorem PageRequest.ofPage_eq_ok_iff {number : Nat} {size : Option Nat} {limits : PageLimits}
    {request : PageRequest} :
    PageRequest.ofPage number size limits = .ok request ↔
      ((number * limits.clamp size : Nat) : Int) ≤ Text.int64Max ∧
        request = ⟨number * limits.clamp size, limits.clamp size⟩ := by
  rw [PageRequest.ofPage]
  by_cases h : ((number * limits.clamp size : Nat) : Int) ≤ Text.int64Max
  · rw [if_pos h, Except.ok.injEq]
    exact ⟨fun heq => ⟨h, heq.symm⟩, fun heq => heq.2.symm⟩
  · rw [if_neg h]
    exact ⟨fun heq => absurd heq (by simp), fun heq => absurd heq.1 h⟩

/-- What is paged through: all rows in their order, the size that is asked for, and the limits. -/
structure Listing (α : Type) where
  rows : List α
  size : Option Nat
  limits : PageLimits

namespace Listing

variable {α : Type}

/-- The size of the pages. -/
def limit (l : Listing α) : Nat := l.limits.clamp l.size

/-- The window of a page, if it can be asked for. -/
def request (l : Listing α) (number : Nat) : Except FilterError PageRequest :=
  PageRequest.ofPage number l.size l.limits

/-- The page that answers a request. -/
def answer (l : Listing α) (request : PageRequest) : Page α :=
  ⟨(l.rows.drop request.offset).take request.limit,
    ⟨request.offset, request.limit, l.rows.length⟩⟩

/-- The walk comes to the page of this number. -/
inductive Visited (l : Listing α) : Nat → Prop
  | first : Visited l 0
  | next {number : Nat} {request : PageRequest} (hvisited : Visited l number)
      (hrequest : l.request number = .ok request) (hnext : (l.answer request).hasNext) :
      Visited l (number + 1)

/-- The walk from the page of this number on stops after these pages. -/
inductive Walk (l : Listing α) : Nat → List (Page α) → Prop
  | last {number : Nat} {request : PageRequest} (hrequest : l.request number = .ok request)
      (hlast : ¬ (l.answer request).hasNext) : Walk l number [l.answer request]
  | next {number : Nat} {request : PageRequest} {pages : List (Page α)}
      (hrequest : l.request number = .ok request) (hnext : (l.answer request).hasNext)
      (hrest : Walk l (number + 1) pages) : Walk l number (l.answer request :: pages)

variable {l : Listing α}

/-! ### One page -/

theorem request_eq_ok_iff {number : Nat} {request : PageRequest} :
    l.request number = .ok request ↔
      ((number * l.limit : Nat) : Int) ≤ Text.int64Max ∧
        request = ⟨number * l.limit, l.limit⟩ :=
  PageRequest.ofPage_eq_ok_iff

/-- A page says that there is a next exactly if its window ends before the rows do. -/
theorem hasNext_answer (hrows : (l.rows.length : Int) ≤ Text.int64Max) {request : PageRequest} :
    (l.answer request).hasNext ↔ request.offset + request.limit < l.rows.length := by
  have hitems : (l.answer request).items.length =
      min request.limit (l.rows.length - request.offset) := by
    rw [answer, List.length_take, List.length_drop]
  rw [Page.hasNext_iff hrows, hitems]
  show request.offset + min request.limit (l.rows.length - request.offset) < l.rows.length ↔ _
  omega

theorem hasNext_page (hrows : (l.rows.length : Int) ≤ Text.int64Max) {number : Nat} :
    (l.answer ⟨number * l.limit, l.limit⟩).hasNext ↔ (number + 1) * l.limit < l.rows.length := by
  rw [hasNext_answer hrows, Nat.succ_mul]

/-! ### The walk -/

/-- **Invariant.** The offset of a visited page does not pass the end of the rows. -/
theorem Visited.offset_le (hrows : (l.rows.length : Int) ≤ Text.int64Max) {number : Nat}
    (h : l.Visited number) : number * l.limit ≤ l.rows.length := by
  induction h with
  | first => omega
  | next _ hrequest hnext _ =>
    obtain ⟨-, rfl⟩ := request_eq_ok_iff.1 hrequest
    exact Nat.le_of_lt ((hasNext_page hrows).1 hnext)

/-- A page whose offset lies within the rows can be asked for. -/
theorem request_of_offset_le (hrows : (l.rows.length : Int) ≤ Text.int64Max) {number : Nat}
    (h : number * l.limit ≤ l.rows.length) :
    l.request number = .ok ⟨number * l.limit, l.limit⟩ :=
  request_eq_ok_iff.2 ⟨by omega, rfl⟩

/-- What a walk collects is the rest of the rows. -/
theorem Walk.items_eq (hrows : (l.rows.length : Int) ≤ Text.int64Max) {number : Nat}
    {pages : List (Page α)} (h : l.Walk number pages) :
    pages.flatMap (·.items) = l.rows.drop (number * l.limit) := by
  induction h with
  | @last number _ hrequest hlast =>
    obtain ⟨-, rfl⟩ := request_eq_ok_iff.1 hrequest
    rw [hasNext_page hrows, Nat.succ_mul] at hlast
    have hshort : (l.rows.drop (number * l.limit)).length ≤ l.limit := by
      rw [List.length_drop]
      omega
    rw [List.flatMap_singleton]
    exact List.take_of_length_le hshort
  | next hrequest _ _ ih =>
    obtain ⟨-, rfl⟩ := request_eq_ok_iff.1 hrequest
    rw [List.flatMap_cons, ih, Nat.succ_mul, ← List.drop_drop]
    exact List.take_append_drop _ _

/-- A walk collects the pages that it visits. -/
theorem Walk.visited {number : Nat} {pages : List (Page α)} (h : l.Walk number pages)
    (hnumber : l.Visited number) : ∀ page ∈ pages, ∃ visited request,
      l.Visited visited ∧ l.request visited = .ok request ∧ page = l.answer request := by
  induction h with
  | last hrequest _ =>
    intro page hpage
    exact ⟨_, _, hnumber, hrequest, List.mem_singleton.1 hpage⟩
  | next hrequest hnext _ ih =>
    intro page hpage
    cases List.mem_cons.1 hpage with
    | inl hhere => exact ⟨_, _, hnumber, hrequest, hhere⟩
    | inr hlater => exact ih (.next hnumber hrequest hnext) page hlater

/-- A walk takes one course only. -/
theorem Walk.unique {number : Nat} {pages other : List (Page α)} (h : l.Walk number pages)
    (h' : l.Walk number other) : other = pages := by
  induction h generalizing other with
  | last hrequest hlast =>
    cases h' with
    | last hrequest' _ => rw [Except.ok.inj (hrequest.symm.trans hrequest')]
    | next hrequest' hnext _ =>
      rw [← Except.ok.inj (hrequest.symm.trans hrequest')] at hnext
      exact absurd hnext hlast
  | next hrequest hnext _ ih =>
    cases h' with
    | last hrequest' hlast =>
      rw [← Except.ok.inj (hrequest.symm.trans hrequest')] at hlast
      exact absurd hnext hlast
    | next hrequest' _ hrest => rw [Except.ok.inj (hrequest.symm.trans hrequest'), ih hrest]

/-- From a page within the rows the walk stops: each step leaves fewer rows. -/
theorem exists_walk (hrows : (l.rows.length : Int) ≤ Text.int64Max) (number : Nat)
    (h : number * l.limit ≤ l.rows.length) : ∃ pages, l.Walk number pages := by
  have hrequest := request_of_offset_le hrows h
  have hlimit : 1 ≤ l.limit := PageLimits.one_le_clamp _ _
  by_cases hnext : (l.answer ⟨number * l.limit, l.limit⟩).hasNext
  · -- the next offset is still within the rows, and further on by one row at least
    have hbeyond := (hasNext_page hrows).1 hnext
    obtain ⟨pages, hrest⟩ := exists_walk hrows (number + 1) (Nat.le_of_lt hbeyond)
    exact ⟨_, .next hrequest hnext hrest⟩
  · exact ⟨_, .last hrequest hnext⟩
termination_by l.rows.length - number * l.limit
decreasing_by
  rw [Nat.succ_mul] at hbeyond ⊢
  omega

/-- **Walking the pages visits every row once.** No visited page is refused, each says rightly
whether there are rows beyond it, and the walk stops with all rows in their order. -/
theorem walk_visits_every_row (hrows : (l.rows.length : Int) ≤ Text.int64Max) :
    (∀ number, l.Visited number → ∃ request, l.request number = .ok request ∧
      ((l.answer request).hasNext ↔ l.rows.drop (request.offset + request.limit) ≠ [])) ∧
    ∃ pages, l.Walk 0 pages ∧ (∀ other, l.Walk 0 other → other = pages) ∧
      (∀ page ∈ pages, ∃ number request, l.Visited number ∧ l.request number = .ok request ∧
        page = l.answer request) ∧
      pages.flatMap (·.items) = l.rows := by
  constructor
  · intro number hvisited
    refine ⟨_, request_of_offset_le hrows (hvisited.offset_le hrows), ?_⟩
    rw [hasNext_answer hrows, ne_eq, List.drop_eq_nil_iff]
    omega
  · obtain ⟨pages, hwalk⟩ := exists_walk hrows 0 (by omega)
    refine ⟨pages, hwalk, fun other hother => hwalk.unique hother, hwalk.visited .first, ?_⟩
    rw [hwalk.items_eq hrows, Nat.zero_mul, List.drop_zero]

/-- Five rows, two on a page. -/
def fiveRows : Listing Nat := ⟨[1, 2, 3, 4, 5], some 2, ⟨20, 100⟩⟩

theorem walk_visits_five_rows :
    ((fiveRows.rows.length : Nat) : Int) ≤ Text.int64Max ∧
      ∃ pages, fiveRows.Walk 0 pages ∧ pages.map (·.items) = [[1, 2], [3, 4], [5]] ∧
        pages.flatMap (·.items) = fiveRows.rows := by
  have hrows : ((fiveRows.rows.length : Nat) : Int) ≤ Text.int64Max := by decide
  obtain ⟨-, pages, hwalk, hunique, -, hitems⟩ := walk_visits_every_row hrows
  have hthree : fiveRows.Walk 0
      [fiveRows.answer ⟨0, 2⟩, fiveRows.answer ⟨2, 2⟩, fiveRows.answer ⟨4, 2⟩] :=
    .next rfl (by decide) (.next rfl (by decide) (.last rfl (by decide)))
  refine ⟨hrows, pages, hwalk, ?_, hitems⟩
  rw [← hunique _ hthree]
  rfl

end Listing

end QuerySieve
