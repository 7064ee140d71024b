import QuerySieve.Proofs.Paging
import QuerySieve.Proofs.Sql.Layout
import QuerySieve.Proofs.Text
import QuerySieve.Settings

/-!
# QuerySieve.Proofs.Window

**The window that parameters ask for**, from their texts to the values that a page binds.

`PageRequest.Asks` says which number a parameter asks for and `PageLimits.Grants` which limit is
granted; neither mentions how it is computed. A request is `Unreachable` if a parameter asks for
nothing that is a number, or if the offset is beyond the signed 64-bit integers. `window_is_exact`
says that exactly these requests are refused, and that the others get the product of page and limit
as their offset.

Only the offset is checked. The limit is bound as it was granted, and on the first page that can be
more than a signed 64-bit integer holds. It takes settings that allow pages of this size
(`limit_beyond_int64_is_bound`).
-/

namespace QuerySieve

/-! ### What is granted -/

/-- The limit for a size that is asked for: the size itself, or the bound that it passes. Without
one the default is taken for it. -/
inductive PageLimits.Grants (limits : PageLimits) (requested : Option Nat) : Nat → Prop
  | size (hleast : 1 ≤ requested.getD limits.default)
      (hgreatest : requested.getD limits.default ≤ Max.max 1 limits.max) :
      Grants limits requested (requested.getD limits.default)
  | least (hsmall : requested.getD limits.default = 0) : Grants limits requested 1
  | greatest (hlarge : Max.max 1 limits.max < requested.getD limits.default) :
      Grants limits requested (Max.max 1 limits.max)

namespace PageLimits

variable {limits : PageLimits} {requested : Option Nat} {limit : Nat}

theorem grants_iff : limits.Grants requested limit ↔ limit = limits.clamp requested := by
  unfold clamp
  constructor
  · intro h
    cases h <;> omega
  · rintro rfl
    rcases Nat.eq_zero_or_pos (requested.getD limits.default) with hsmall | hleast
    · rw [hsmall, Nat.zero_min, Nat.max_eq_left (Nat.zero_le 1)]
      exact .least hsmall
    · rcases Nat.lt_or_ge (Max.max 1 limits.max) (requested.getD limits.default) with
        hlarge | hgreatest
      · rw [Nat.min_eq_right (Nat.le_of_lt hlarge), Nat.max_eq_right (Nat.le_max_left ..)]
        exact .greatest hlarge
      · rw [Nat.min_eq_left hgreatest, Nat.max_eq_right hleast]
        exact .size hleast hgreatest

/-- More than a signed 64-bit integer is granted only if it is asked for and allowed. -/
theorem int64Max_lt_clamp_iff : Text.int64Max < limits.clamp requested ↔
    Text.int64Max < requested.getD limits.default ∧ Text.int64Max < limits.max := by
  have hone : (1 : Int) < Text.int64Max := by decide
  unfold clamp
  omega

end PageLimits

/-! ### What is asked for -/

namespace PageRequest

variable {params : Params} {name : String} {requested : Option Nat} {limits : PageLimits}
variable {request : PageRequest}

/-- The number that a parameter asks for. None is asked for by a parameter that is not there or
blank. -/
inductive Asks (params : Params) (name : String) : Option Nat → Prop
  | absent (habsent : params.get? name = none) : Asks params name none
  | blank {raw : String} (hraw : params.get? name = some raw) (hblank : Text.isBlankText raw) :
      Asks params name none
  | number {raw : String} {n : Nat} (hraw : params.get? name = some raw)
      (hnumeral : Text.IsNumeral (Text.trim raw) n) : Asks params name (some n)

/-- The parameter is there, but, trimmed, neither blank nor the numeral of an unsigned 64-bit
integer. -/
def Misread (params : Params) (name : String) : Prop :=
  ∃ raw, params.get? name = some raw ∧ ¬ Text.isBlankText raw ∧
    ∀ n, ¬ Text.IsNumeral (Text.trim raw) n

theorem asks_or_misread (params : Params) (name : String) :
    (∃ requested, Asks params name requested) ∨ Misread params name := by
  cases hraw : params.get? name with
  | none => exact .inl ⟨none, .absent hraw⟩
  | some raw =>
    by_cases hblank : Text.isBlankText raw
    · exact .inl ⟨none, .blank hraw hblank⟩
    · by_cases hnumeral : ∃ n, Text.IsNumeral (Text.trim raw) n
      · obtain ⟨n, hnumeral⟩ := hnumeral
        exact .inl ⟨some n, .number hraw hnumeral⟩
      · exact .inr ⟨raw, hraw, hblank, not_exists.1 hnumeral⟩

theorem number?_of_asks (h : Asks params name requested) :
    number? params name = .ok requested := by
  unfold number?
  cases h with
  | absent habsent => rw [habsent]; rfl
  | blank hraw hblank =>
    rw [hraw, Option.map_some, Text.trim_eq_empty_iff.2 hblank]
    rfl
  | @number raw n hraw hnumeral =>
    have hfilled : Text.trim raw ≠ "" := by
      intro hempty
      rw [hempty] at hnumeral
      exact nomatch Text.nat64?_eq_some_iff.2 hnumeral
    simp only [hraw, Option.map_some, if_neg hfilled, Text.nat64?_eq_some_iff.2 hnumeral]

theorem exists_number?_of_misread (h : Misread params name) :
    ∃ error, number? params name = .error error := by
  obtain ⟨raw, hraw, hfilled, hnumeral⟩ := h
  have hnone : Text.nat64? (Text.trim raw) = none :=
    Option.eq_none_iff_forall_ne_some.2 fun n hread =>
      hnumeral n (Text.nat64?_eq_some_iff.1 hread)
  unfold number?
  simp only [hraw, Option.map_some, if_neg (mt Text.trim_eq_empty_iff.1 hfilled), hnone]
  exact ⟨_, rfl⟩

/-! ### The window -/

/-- The parameters ask for no window, or for one with an offset that no signed 64-bit integer is. -/
def Unreachable (limits : PageLimits) (params : Params) : Prop :=
  Misread params pageParam ∨ Misread params sizeParam ∨
    ∃ page size limit, Asks params pageParam page ∧ Asks params sizeParam size ∧
      limits.Grants size limit ∧ Text.int64Max < (page.getD 0 * limit : Nat)

/-- The window is the one of the page and the size that the parameters ask for. -/
structure Reaches (limits : PageLimits) (params : Params) (page size : Option Nat)
    (request : PageRequest) : Prop where
  asksPage : Asks params pageParam page
  asksSize : Asks params sizeParam size
  limit : limits.Grants size request.limit
  offset : request.offset = page.getD 0 * request.limit
  fits : (request.offset : Int) ≤ Text.int64Max

variable {page size : Option Nat}

theorem ofParams_of_asks (hpage : Asks params pageParam page) (hsize : Asks params sizeParam size) :
    ofParams params limits = ofPage (page.getD 0) size limits := by
  rw [ofParams, number?_of_asks hpage, number?_of_asks hsize]
  rfl

/-- A page that cannot be read is refused, whatever the size. -/
theorem exists_ofParams_of_misread (h : Misread params pageParam) :
    ∃ error, ofParams params limits = .error error := by
  obtain ⟨error, herror⟩ := exists_number?_of_misread h
  exact ⟨error, by rw [ofParams, herror]; rfl⟩

theorem exists_ofParams_of_unreachable (h : Unreachable limits params) :
    ∃ error, ofParams params limits = .error error := by
  rcases h with hpage | hsize | ⟨page, size, limit, hpage, hsize, hlimit, hbeyond⟩
  · exact exists_ofParams_of_misread hpage
  · rcases asks_or_misread params pageParam with ⟨page, hpage⟩ | hpage
    · obtain ⟨error, herror⟩ := exists_number?_of_misread hsize
      exact ⟨error, by rw [ofParams, number?_of_asks hpage, herror]; rfl⟩
    · exact exists_ofParams_of_misread hpage
  · rw [PageLimits.grants_iff.1 hlimit] at hbeyond
    rw [ofParams_of_asks hpage hsize, ofPage, if_neg (Int.not_le.2 hbeyond)]
    exact ⟨_, rfl⟩

theorem reaches_or_unreachable (limits : PageLimits) (params : Params) :
    (∃ page size request, ofParams params limits = .ok request ∧
      Reaches limits params page size request) ∨ Unreachable limits params := by
  rcases asks_or_misread params pageParam with ⟨page, hpage⟩ | hpage
  · rcases asks_or_misread params sizeParam with ⟨size, hsize⟩ | hsize
    · have hlimit := PageLimits.grants_iff.2 (rfl : limits.clamp size = limits.clamp size)
      rcases Int.lt_or_le Text.int64Max (page.getD 0 * limits.clamp size : Nat) with
        hbeyond | hfits
      · exact .inr (.inr (.inr ⟨page, size, _, hpage, hsize, hlimit, hbeyond⟩))
      · refine .inl ⟨page, size, ⟨page.getD 0 * limits.clamp size, limits.clamp size⟩, ?_,
          hpage, hsize, hlimit, rfl, hfits⟩
        rw [ofParams_of_asks hpage hsize]
        exact ofPage_eq_ok_iff.2 ⟨hfits, rfl⟩
    · exact .inr (.inr (.inl hsize))
  · exact .inr (.inl hpage)

/-- On a later page the limit is at most the offset, so it fits as well. -/
theorem Reaches.int64Max_lt_limit_iff (h : Reaches limits params page size request) :
    Text.int64Max < request.limit ↔
      page.getD 0 = 0 ∧ Text.int64Max < size.getD limits.default ∧ Text.int64Max < limits.max := by
  have hfits := h.fits
  rw [h.offset] at hfits
  rw [← PageLimits.int64Max_lt_clamp_iff, ← PageLimits.grants_iff.1 h.limit]
  refine ⟨fun hlimit => ⟨?_, hlimit⟩, And.right⟩
  by_contra hlater
  have hle := Nat.le_mul_of_pos_left request.limit (Nat.pos_of_ne_zero hlater)
  omega

end PageRequest

namespace Sql

/-- The limit and the offset are bound last, and as they are. -/
theorem values_selectPage_eq_append (d : Dialect) (root : Schema) (predicate : Option Predicate)
    (page : PageRequest) :
    (selectPage root predicate page).values d =
      { selectPage root predicate page with window := none }.values d ++
        [.int page.limit, .int page.offset] := by
  simp [Statement.values, Statement.fragments, selectPage]

end Sql

namespace PageRequest

/-- **The window is exact.** A request is refused exactly if its page or its size, trimmed, is
neither blank nor the numeral of an unsigned 64-bit integer, or if the product of the page and the
granted limit exceeds the signed 64-bit integers. Any other gets this product as its offset, and a
page of it binds the granted limit and the offset as they are. The offset is always a signed 64-bit
integer. The limit is none exactly on a first page for which a size that is none comes into effect
and is allowed. -/
theorem window_is_exact (settings : SearchSettings) (params : Params) :
    ((∃ error, ofParams params settings.limits = .error error) ↔
      Unreachable settings.limits params) ∧
    ((∃ page size request, ofParams params settings.limits = .ok request ∧
        Reaches settings.limits params page size request ∧
        (∀ root predicate d, (Sql.selectPage root predicate request).values d =
          { Sql.selectPage root predicate request with window := none }.values d ++
            [.int request.limit, .int request.offset]) ∧
        (Text.int64Max < request.limit ↔ page.getD 0 = 0 ∧
          Text.int64Max < size.getD settings.defaultPageSize ∧
          Text.int64Max < settings.maxPageSize)) ↔
      ¬ Unreachable settings.limits params) := by
  refine ⟨⟨fun hrefused => ?_, exists_ofParams_of_unreachable⟩, fun hgiven hunreachable => ?_,
    fun hreachable => ?_⟩
  · obtain ⟨error, herror⟩ := hrefused
    refine (reaches_or_unreachable _ _).resolve_left fun hgiven => ?_
    obtain ⟨page, size, request, hrequest, -⟩ := hgiven
    cases herror.symm.trans hrequest
  · obtain ⟨page, size, request, hrequest, -⟩ := hgiven
    obtain ⟨error, herror⟩ := exists_ofParams_of_unreachable hunreachable
    cases herror.symm.trans hrequest
  · obtain ⟨page, size, request, hrequest, hreaches⟩ :=
      (reaches_or_unreachable _ _).resolve_right hreachable
    exact ⟨page, size, request, hrequest, hreaches,
      fun root predicate d => Sql.values_selectPage_eq_append d root predicate request,
      hreaches.int64Max_lt_limit_iff⟩

/-- Settings that allow pages of any size. -/
def boundless : SearchSettings := { maxPageSize := Text.nat64Max }

/-- The least size that is no signed 64-bit integer. -/
def hugePage : Params := .ofList [("size", "9223372036854775808")]

/-- A limit that no signed 64-bit integer is, bound by the first page. -/
theorem limit_beyond_int64_is_bound :
    ofParams hugePage boundless.limits = .ok ⟨0, 9223372036854775808⟩ ∧
      (∀ root d, (Sql.selectPage root none ⟨0, 9223372036854775808⟩).values d =
        [.int 9223372036854775808, .int 0]) ∧
      Text.int64Max < 9223372036854775808 :=
  ⟨rfl, fun _ _ => rfl, by decide⟩

end PageRequest

end QuerySieve
