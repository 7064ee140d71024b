import QuerySieve.Naming
import QuerySieve.Error
import QuerySieve.Json
import QuerySieve.Text.Decimal

/-!
# QuerySieve.Page

Pages: which window of the rows a request asks for, and what is returned with it.

Page numbers, sizes and offsets are unsigned 64-bit integers, and an offset has to be a signed one
as well, because that is what a database takes. A page that would lie beyond is refused.
-/

namespace QuerySieve

/-- The size of a page when none is asked for, and the greatest that is granted. -/
structure PageLimits where
  default : Nat
  max : Nat
  deriving DecidableEq, Repr

/-- The size that is granted: at least 1 and at most the limit, where a limit of 0 counts as 1. -/
def PageLimits.clamp (limits : PageLimits) (requested : Option Nat) : Nat :=
  Max.max 1 (min (requested.getD limits.default) (Max.max 1 limits.max))

/-- The window of rows that is asked for. -/
structure PageRequest where
  offset : Nat
  limit : Nat
  deriving DecidableEq, Repr

namespace PageRequest

/-- The parameter with the page number, counted from 0. -/
def pageParam : String := "page"

/-- The parameter with the page size. -/
def sizeParam : String := "size"

/-- The window of a page. -/
def ofPage (page : Nat) (size : Option Nat) (limits : PageLimits) :
    Except FilterError PageRequest :=
  let limit := limits.clamp size
  if ((page * limit : Nat) : Int) ≤ Text.int64Max then .ok ⟨page * limit, limit⟩
  else .error (.badValue pageParam (toString page) .reachablePage)

/-- A number among the parameters; a blank one counts as absent. -/
def number? (params : Params) (name : String) : Except FilterError (Option Nat) :=
  match (params.get? name).map Text.trim with
  | none => .ok none
  | some raw =>
    if raw = "" then .ok none
    else match Text.nat64? raw with
      | some n => .ok (some n)
      | none => .error (.badValue name raw .naturalNumber)

/-- The window that the parameters ask for. -/
def ofParams (params : Params) (limits : PageLimits) : Except FilterError PageRequest := do
  let page ← number? params pageParam
  let size ← number? params sizeParam
  ofPage (page.getD 0) size limits

end PageRequest

/-- Where a page lies, and how many rows there are in all. -/
structure PageInfo where
  offset : Nat
  limit : Nat
  total : Nat
  deriving DecidableEq, Repr

/-- One page of items. -/
structure Page (α : Type) where
  items : List α
  info : PageInfo
  deriving DecidableEq, Repr

namespace Page

variable {α β : Type}

/-- The page without items that answers a request. -/
def empty (request : PageRequest) : Page α := ⟨[], ⟨request.offset, request.limit, 0⟩⟩

/-- Is there a row beyond this page? Where it ends is capped at the greatest unsigned 64-bit
integer. -/
def hasNext (page : Page α) : Bool :=
  min (page.info.offset + page.items.length) Text.nat64Max < page.info.total

/-- The same page of other items. -/
def map (f : α → β) (page : Page α) : Page β := ⟨page.items.map f, page.info⟩

/-- A page of JSON items as JSON. -/
def toJson (page : Page Json) : Json :=
  .obj [("items", .arr page.items),
    ("page_info", .obj [("offset", .int page.info.offset), ("limit", .int page.info.limit),
      ("total", .int page.info.total)])]

end Page

end QuerySieve
