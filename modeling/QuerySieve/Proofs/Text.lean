import Mathlib.Data.List.Forall2
import Mathlib.Data.List.TakeWhile
import QuerySieve.Text
import QuerySieve.Text.Decimal

/-!
# QuerySieve.Proofs.Text

**Cutting and trimming.** What was joined is cut into the same pieces again, as long as no piece has
the separator in it (`split_join`). Trimming takes white space off the ends and nothing else
(`exists_eq_append_trimChars`), so a text may be trimmed before it is cut into pieces that are
trimmed themselves (`map_trim_split_trim`). The numeral of an integer is made of digits and possibly
a sign, so nothing is trimmed off it and no separator cuts it. `IsNumeral` says which texts are read
as unsigned integers.
-/

namespace QuerySieve.Text

variable {sep : Char} {cs blanks : List Char}

/-! ### Beginnings -/

theorem startsWith_iff {start s : String} :
    startsWith start s ↔ start.toList <+: s.toList :=
  List.isPrefixOf_iff_prefix

/-- Of two texts that another begins with, equally long ones are equal. -/
theorem eq_of_startsWith {a b s : String} (ha : startsWith a s) (hb : startsWith b s)
    (hlength : a.length = b.length) : a = b := by
  rw [startsWith_iff] at ha hb
  have hshorter := List.prefix_of_prefix_length_le ha hb (Nat.le_of_eq hlength)
  exact String.toList_inj.1 (hshorter.eq_of_length hlength)

/-! ### Cutting -/

/-- What stands before the first separator is determined by the whole. -/
theorem append_cons_inj {α : Type} {sep : α} {xs ys as bs : List α} (hx : sep ∉ xs) (hy : sep ∉ ys)
    (h : xs ++ sep :: as = ys ++ sep :: bs) : xs = ys ∧ as = bs := by
  induction xs generalizing ys with
  | nil =>
    cases ys with
    | nil => exact ⟨rfl, (List.cons.inj h).2⟩
    | cons y ys => exact absurd ((List.cons.inj h).1 ▸ List.mem_cons_self ..) hy
  | cons x xs ih =>
    cases ys with
    | nil => exact absurd ((List.cons.inj h).1 ▸ List.mem_cons_self ..) hx
    | cons y ys =>
      obtain ⟨hhead, htail⟩ := List.cons.inj h
      obtain ⟨hrest, hafter⟩ := ih (fun hm => hx (List.mem_cons_of_mem _ hm))
        (fun hm => hy (List.mem_cons_of_mem _ hm)) htail
      exact ⟨by rw [hhead, hrest], hafter⟩

/-- A piece ends at the first separator. -/
theorem splitChars_append_cons {sep : Char} {cs : List Char} (h : sep ∉ cs) (rest : List Char) :
    splitChars sep (cs ++ sep :: rest) = cs :: splitChars sep rest := by
  induction cs with
  | nil => simp [splitChars]
  | cons c cs ih =>
    obtain ⟨hc, hcs⟩ := not_or.1 (mt List.mem_cons.2 h)
    rw [List.cons_append, splitChars, if_neg (Ne.symm hc), ih hcs]

/-- There is one piece more than there are separators. -/
theorem length_splitChars (sep : Char) (cs : List Char) :
    (splitChars sep cs).length = cs.count sep + 1 := by
  induction cs with
  | nil => rfl
  | cons c cs ih =>
    rw [splitChars]
    split
    · rename_i h
      rw [List.length_cons, ih, h, List.count_cons_self]
    · rename_i h
      rw [List.count_cons_of_ne h, ← ih]
      cases hs : splitChars sep cs with
      | nil => exact absurd hs (splitChars_ne_nil sep cs)
      | cons piece pieces => rfl

theorem length_split (sep : Char) (s : String) : (split sep s).length = s.toList.count sep + 1 := by
  rw [split, List.length_map, length_splitChars]

theorem splitChars_cons_of_ne {c : Char} {piece : List Char} {pieces : List (List Char)}
    (hc : c ≠ sep) (h : splitChars sep cs = piece :: pieces) :
    splitChars sep (c :: cs) = (c :: piece) :: pieces := by
  rw [splitChars, if_neg hc, h]

theorem splitChars_append_sep (xs ys : List Char) :
    splitChars sep (xs ++ sep :: ys) = splitChars sep xs ++ splitChars sep ys := by
  induction xs with
  | nil => simp [splitChars]
  | cons c xs ih =>
    by_cases hc : c = sep
    · simp only [List.cons_append, splitChars, if_pos hc, ih]
    · obtain ⟨piece, pieces, hpieces⟩ := List.exists_cons_of_ne_nil (splitChars_ne_nil sep xs)
      rw [splitChars_cons_of_ne hc hpieces, List.cons_append, List.cons_append]
      exact splitChars_cons_of_ne hc (by rw [ih, hpieces, List.cons_append])

/-- The pieces of two texts with the separator between them. -/
theorem split_append (s t : String) :
    split sep (s ++ .singleton sep ++ t) = split sep s ++ split sep t := by
  simp [split, splitChars_append_sep]

theorem splitChars_joinChars {pieces : List (List Char)} (hne : pieces ≠ [])
    (h : ∀ piece ∈ pieces, sep ∉ piece) : splitChars sep (joinChars sep pieces) = pieces := by
  induction pieces with
  | nil => exact absurd rfl hne
  | cons piece pieces ih =>
    obtain ⟨hpiece, hpieces⟩ := List.forall_mem_cons.1 h
    cases pieces with
    | nil => exact splitChars_of_not_mem hpiece
    | cons next pieces =>
      rw [joinChars_cons_cons, splitChars_append_cons hpiece, ih (List.cons_ne_nil _ _) hpieces]

theorem mem_joinChars {c : Char} {pieces : List (List Char)} (h : c ∈ joinChars sep pieces) :
    c = sep ∨ ∃ piece ∈ pieces, c ∈ piece := by
  induction pieces with
  | nil => cases h
  | cons piece pieces ih =>
    cases pieces with
    | nil => exact .inr ⟨piece, List.mem_cons_self, h⟩
    | cons next pieces =>
      rw [joinChars_cons_cons, List.mem_append, List.mem_cons] at h
      obtain hpiece | hsep | hrest := h
      · exact .inr ⟨piece, List.mem_cons_self, hpiece⟩
      · exact .inl hsep
      · obtain hsep | ⟨other, hother, hc⟩ := ih hrest
        · exact .inl hsep
        · exact .inr ⟨other, List.mem_cons_of_mem _ hother, hc⟩

theorem mem_join {c : Char} {pieces : List String} (h : c ∈ (join sep pieces).toList) :
    c = sep ∨ ∃ piece ∈ pieces, c ∈ piece.toList := by
  rw [join, String.toList_ofList] at h
  simpa using mem_joinChars h

theorem mem_joinChars_of_mem {c : Char} {piece : List Char} {pieces : List (List Char)}
    (hpiece : piece ∈ pieces) (hc : c ∈ piece) : c ∈ joinChars sep pieces := by
  induction pieces with
  | nil => cases hpiece
  | cons first pieces ih =>
    cases pieces with
    | nil =>
      obtain rfl := List.mem_singleton.1 hpiece
      exact hc
    | cons next pieces =>
      rw [joinChars_cons_cons, List.mem_append]
      rcases List.mem_cons.1 hpiece with rfl | hpiece
      · exact .inl hc
      · exact .inr (List.mem_cons_of_mem _ (ih hpiece))

/-- A piece has the characters of the text, without the separator. -/
theorem mem_of_mem_split {c : Char} {s piece : String} (hpiece : piece ∈ split sep s)
    (hc : c ∈ piece.toList) : c ∈ s.toList ∧ c ≠ sep := by
  obtain ⟨cs, hcs, rfl⟩ := List.mem_map.1 hpiece
  rw [String.toList_ofList] at hc
  refine ⟨?_, fun heq => not_mem_of_mem_splitChars hcs (heq ▸ hc)⟩
  rw [← joinChars_splitChars sep s.toList]
  exact mem_joinChars_of_mem hcs hc

/-- Pieces without the separator are what their joining is cut into. -/
theorem split_join {pieces : List String} (hne : pieces ≠ [])
    (h : ∀ piece ∈ pieces, sep ∉ piece.toList) : split sep (join sep pieces) = pieces := by
  have hpieces : ∀ piece ∈ pieces.map String.toList, sep ∉ piece := by
    simpa using h
  rw [split, join, String.toList_ofList, splitChars_joinChars (by simpa using hne) hpieces,
    List.map_map]
  simp

/-! ### Trimming -/

theorem trimChars_cons_of_isBlank {c : Char} (h : isBlank c) :
    trimChars (c :: cs) = trimChars cs := by
  rw [trimChars, List.dropWhile_cons_of_pos h, trimChars]

theorem trimChars_append_of_isBlank (h : ∀ c ∈ blanks, isBlank c) :
    trimChars (cs ++ blanks) = trimChars cs := by
  have hblanks : blanks.dropWhile isBlank = [] := List.dropWhile_eq_nil_iff.2 h
  rw [trimChars, trimChars, List.dropWhile_append]
  split
  · rename_i hcs
    rw [hblanks, List.isEmpty_iff.1 hcs]
  · rw [List.reverse_append, List.dropWhile_append_of_pos fun c hc => h c (List.mem_reverse.1 hc)]

theorem trimChars_append_left_of_isBlank (h : ∀ c ∈ blanks, isBlank c) :
    trimChars (blanks ++ cs) = trimChars cs := by
  induction blanks with
  | nil => rfl
  | cons c blanks ih =>
    obtain ⟨hc, hblanks⟩ := List.forall_mem_cons.1 h
    rw [List.cons_append, trimChars_cons_of_isBlank hc, ih hblanks]

/-- A text is what is left of it after trimming, with white space around. -/
theorem exists_eq_append_trimChars (cs : List Char) :
    ∃ before after, (∀ c ∈ before, isBlank c) ∧ (∀ c ∈ after, isBlank c) ∧
      cs = before ++ (trimChars cs ++ after) := by
  refine ⟨cs.takeWhile isBlank, ((cs.dropWhile isBlank).reverse.takeWhile isBlank).reverse,
    fun c hc => List.mem_takeWhile_imp hc,
    fun c hc => List.mem_takeWhile_imp (List.mem_reverse.1 hc), ?_⟩
  rw [trimChars, ← List.reverse_append, List.takeWhile_append_dropWhile, List.reverse_reverse,
    List.takeWhile_append_dropWhile]

theorem trimChars_eq_nil_iff : trimChars cs = [] ↔ ∀ c ∈ cs, isBlank c := by
  rw [trimChars, List.reverse_eq_nil_iff, List.dropWhile_eq_nil_iff]
  constructor
  · intro h
    have hnil : cs.dropWhile isBlank = [] := by
      by_contra hne
      have hhead := List.head_dropWhile_not isBlank hne
      rw [h _ (List.mem_reverse.2 (List.head_mem hne))] at hhead
      cases hhead
    exact List.dropWhile_eq_nil_iff.1 hnil
  · intro h c hc
    rw [List.dropWhile_eq_nil_iff.2 h] at hc
    cases hc

/-- What is left after trimming neither begins nor ends with white space. -/
theorem head?_trimChars {c : Char} (h : c ∈ (trimChars cs).head?) : ¬ isBlank c := by
  have hprefix : trimChars cs <+: cs.dropWhile isBlank := by
    rw [trimChars, ← List.reverse_suffix, List.reverse_reverse]
    exact List.dropWhile_suffix _
  obtain ⟨rest, hrest⟩ := List.head?_eq_some_iff.1 h
  obtain ⟨after, hafter⟩ := hrest ▸ hprefix
  have hstop := List.head?_dropWhile_not isBlank cs
  rw [← hafter] at hstop
  simpa using hstop

theorem getLast?_trimChars {c : Char} (h : c ∈ (trimChars cs).getLast?) : ¬ isBlank c := by
  rw [trimChars, List.getLast?_reverse] at h
  have hstop := List.head?_dropWhile_not isBlank (cs.dropWhile isBlank).reverse
  rw [Option.mem_def.1 h] at hstop
  simpa using hstop

theorem mem_of_mem_trim {c : Char} {s : String} (h : c ∈ (trim s).toList) : c ∈ s.toList := by
  obtain ⟨before, after, -, -, hs⟩ := exists_eq_append_trimChars s.toList
  rw [trim, String.toList_ofList] at h
  rw [hs]
  exact List.mem_append_right _ (List.mem_append_left _ h)

theorem trim_eq_empty_iff {s : String} : trim s = "" ↔ isBlankText s := by
  rw [trim, isBlankText, List.all_eq_true, ← trimChars_eq_nil_iff]
  constructor
  · intro h
    simpa using congrArg String.toList h
  · intro h
    rw [h]

theorem map_trimChars_splitChars_append_left (hsep : ¬ isBlank sep) (h : ∀ c ∈ blanks, isBlank c) :
    (splitChars sep (blanks ++ cs)).map trimChars = (splitChars sep cs).map trimChars := by
  induction blanks with
  | nil => rfl
  | cons c blanks ih =>
    obtain ⟨hc, hblanks⟩ := List.forall_mem_cons.1 h
    obtain ⟨piece, pieces, hpieces⟩ :=
      List.exists_cons_of_ne_nil (splitChars_ne_nil sep (blanks ++ cs))
    have hne : c ≠ sep := fun heq => hsep (heq ▸ hc)
    rw [List.cons_append, splitChars_cons_of_ne hne hpieces, ← ih hblanks, hpieces, List.map_cons,
      List.map_cons, trimChars_cons_of_isBlank hc]

/-- White space at the end is at the end of the last piece. -/
theorem forall₂_splitChars_append_right (hsep : ¬ isBlank sep) (h : ∀ c ∈ blanks, isBlank c) :
    List.Forall₂ (fun piece core => ∃ after, (∀ c ∈ after, isBlank c) ∧ piece = core ++ after)
      (splitChars sep (cs ++ blanks)) (splitChars sep cs) := by
  induction cs with
  | nil =>
    have hmem : sep ∉ blanks := fun hmem => hsep (h sep hmem)
    rw [List.nil_append, splitChars_of_not_mem hmem]
    exact .cons ⟨blanks, h, rfl⟩ .nil
  | cons c cs ih =>
    by_cases hc : c = sep
    · simp only [List.cons_append, splitChars, if_pos hc]
      exact .cons ⟨[], by simp, rfl⟩ ih
    · obtain ⟨core, cores, hcores⟩ := List.exists_cons_of_ne_nil (splitChars_ne_nil sep cs)
      rw [hcores] at ih
      obtain ⟨piece, pieces, ⟨after, hafter, rfl⟩, hrest, hpieces⟩ :=
        List.forall₂_cons_right_iff.1 ih
      rw [List.cons_append, splitChars_cons_of_ne hc hcores, splitChars_cons_of_ne hc hpieces]
      exact .cons ⟨after, hafter, rfl⟩ hrest

theorem map_trimChars_splitChars_append_right (hsep : ¬ isBlank sep)
    (h : ∀ c ∈ blanks, isBlank c) :
    (splitChars sep (cs ++ blanks)).map trimChars = (splitChars sep cs).map trimChars := by
  have hpieces : List.Forall₂ _ (splitChars sep (cs ++ blanks)) (splitChars sep cs) :=
    forall₂_splitChars_append_right hsep h
  rw [← List.forall₂_eq_eq_eq, List.forall₂_map_left_iff, List.forall₂_map_right_iff]
  refine hpieces.imp ?_
  rintro _ core ⟨after, hafter, rfl⟩
  exact trimChars_append_of_isBlank hafter

/-- Trimming the whole before it is cut makes no difference to the trimmed pieces. -/
theorem map_trim_split_trim (hsep : ¬ isBlank sep) (s : String) :
    (split sep (trim s)).map trim = (split sep s).map trim := by
  have htrim : ∀ t : String, (split sep t).map trim =
      ((splitChars sep t.toList).map trimChars).map String.ofList := by
    intro t
    simp [split, trim, Function.comp_def]
  obtain ⟨before, after, hbefore, hafter, hs⟩ := exists_eq_append_trimChars s.toList
  rw [htrim, htrim]
  conv_rhs => rw [hs, map_trimChars_splitChars_append_left hsep hbefore,
    map_trimChars_splitChars_append_right hsep hafter]
  rw [trim, String.toList_ofList]

/-! ### Numerals -/

theorem isDigit_of_mem_toString {n : Nat} {c : Char} (h : c ∈ (toString n).toList) : c.isDigit :=
  Nat.isDigit_of_mem_toDigits (b := 10) (by omega) (by omega) (Nat.toList_repr ▸ h)

theorem of_mem_toString_int {n : Int} {c : Char} (h : c ∈ (toString n).toList) :
    c = '-' ∨ c.isDigit := by
  cases n with
  | ofNat m => exact .inr (isDigit_of_mem_toString h)
  | negSucc m =>
    rw [show toString (Int.negSucc m) = "-" ++ toString (m + 1) from rfl,
      String.toList_append] at h
    rcases List.mem_append.1 h with hsign | hdigit
    · exact .inl (List.mem_singleton.1 hsign)
    · exact .inr (isDigit_of_mem_toString hdigit)

theorem not_isBlank_of_isDigit {c : Char} (h : c.isDigit) : ¬ isBlank c := by
  have hrange := Char.isDigit_iff_toNat.1 h
  have hlow : '0'.toNat = 48 := rfl
  have hhigh : '9'.toNat = 57 := rfl
  simp only [isBlank, Bool.or_eq_true, Bool.and_eq_true, decide_eq_true_eq, beq_iff_eq]
  omega

theorem not_isBlank_of_mem_toString {n : Int} {c : Char} (h : c ∈ (toString n).toList) :
    ¬ isBlank c := by
  rcases of_mem_toString_int h with rfl | hdigit
  · decide
  · exact not_isBlank_of_isDigit hdigit

/-- Without white space nothing is trimmed. -/
theorem trimChars_eq_self {cs : List Char} (h : ∀ c ∈ cs, ¬ isBlank c) : trimChars cs = cs := by
  have hdrop : ∀ ds : List Char, (∀ c ∈ ds, ¬ isBlank c) → ds.dropWhile isBlank = ds :=
    fun ds hds => List.dropWhile_eq_self_iff.2 fun hne => hds _ (List.getElem_mem hne)
  rw [trimChars, hdrop cs h, hdrop cs.reverse fun c hc => h c (List.mem_reverse.1 hc),
    List.reverse_reverse]

theorem trim_toString (n : Int) : trim (toString n) = toString n := by
  rw [trim, trimChars_eq_self fun c hc => not_isBlank_of_mem_toString hc, String.ofList_toList]

/-- A numeral is one piece. -/
theorem split_toString (n : Int) : split ',' (toString n) = [toString n] := by
  have hcomma : ',' ∉ (toString n).toList := fun h => absurd (of_mem_toString_int h) (by decide)
  rw [split, splitChars_of_not_mem hcomma, List.map_singleton, String.ofList_toList]

/-- The text writes an unsigned 64-bit integer: digits, of which there is at least one, and before
them at most one `+`. -/
def IsNumeral (s : String) (n : Nat) : Prop :=
  n ≤ nat64Max ∧ ∃ digits : List Char, digits ≠ [] ∧ (∀ c ∈ digits, c.isDigit) ∧
    n = Nat.ofDigitChars 10 digits 0 ∧ (s.toList = digits ∨ s.toList = '+' :: digits)

theorem digits?_eq_some_iff {cs : List Char} {n : Nat} :
    digits? cs = some n ↔
      cs ≠ [] ∧ (∀ c ∈ cs, c.isDigit) ∧ n = Nat.ofDigitChars 10 cs 0 := by
  rw [digits?]
  by_cases hdigits : cs ≠ [] ∧ cs.all Char.isDigit
  · rw [if_pos hdigits, Option.some.injEq]
    obtain ⟨hne, hall⟩ := hdigits
    exact ⟨fun h => ⟨hne, List.all_eq_true.1 hall, h.symm⟩, fun h => h.2.2.symm⟩
  · rw [if_neg hdigits]
    exact ⟨fun h => absurd h (by simp), fun h => absurd ⟨h.1, List.all_eq_true.2 h.2.1⟩ hdigits⟩

theorem nat64?_eq_some_iff {s : String} {n : Nat} : nat64? s = some n ↔ IsNumeral s n := by
  have hplus : ¬ '+'.isDigit := by decide
  have hread : ∀ cs : List Char,
      ((digits? cs).bind fun n => if n ≤ nat64Max then some n else none) = some n ↔
        n ≤ nat64Max ∧ digits? cs = some n := by
    intro cs
    cases digits? cs with
    | none => simp
    | some m =>
      rw [Option.bind_some]
      split <;> simp only [Option.some.injEq, reduceCtorEq, false_iff, not_and] <;> omega
  rw [nat64?, IsNumeral]
  cases s.toList with
  | nil =>
    refine ⟨fun h => absurd h (by simp), fun h => ?_⟩
    obtain ⟨-, digits, hne, -, -, htext | htext⟩ := h
    · exact absurd htext.symm hne
    · cases htext
  | cons c ds =>
    show ((digits? (if c = '+' then ds else c :: ds)).bind _) = some n ↔ _
    rw [hread, digits?_eq_some_iff]
    by_cases hsign : c = '+'
    · subst hsign
      rw [if_pos rfl]
      refine and_congr_right fun _ => ⟨fun h => ⟨ds, h.1, h.2.1, h.2.2, .inr rfl⟩, fun h => ?_⟩
      obtain ⟨digits, hne, hall, hvalue, rfl | htext⟩ := h
      · exact absurd (hall _ (List.mem_cons_self ..)) hplus
      · obtain rfl := (List.cons.inj htext).2
        exact ⟨hne, hall, hvalue⟩
    · rw [if_neg hsign]
      refine and_congr_right fun _ => ⟨fun h => ⟨_, h.1, h.2.1, h.2.2, .inl rfl⟩, fun h => ?_⟩
      obtain ⟨digits, hne, hall, hvalue, rfl | htext⟩ := h
      · exact ⟨hne, hall, hvalue⟩
      · exact absurd (List.cons.inj htext).1 hsign

/-! ### Lower case -/

theorem toLower_of_isBlank {c : Char} (h : isBlank c) : c.toLower = c := by
  refine dif_neg fun hupper => ?_
  have hlow : 'A'.val.toNat = 65 := rfl
  have hhigh : 'Z'.val.toNat = 90 := rfl
  have hcode : c.val.toNat = c.toNat := rfl
  simp only [ge_iff_le, UInt32.le_iff_toNat_le] at hupper
  simp only [isBlank, Bool.or_eq_true, Bool.and_eq_true, decide_eq_true_eq, beq_iff_eq] at h
  omega

/-- If there is no white space in lower case, then there is nothing to trim. -/
theorem trim_eq_self_of_lower {s : String} (h : (lower s).toList.any isBlank = false) :
    trim s = s := by
  have hsolid : ∀ c ∈ s.toList, ¬ isBlank c := by
    intro c hc hblank
    refine List.any_eq_false.1 h c ?_ hblank
    rw [lower, String.toList_ofList, ← toLower_of_isBlank hblank]
    exact List.mem_map_of_mem hc
  rw [trim, trimChars_eq_self hsolid, String.ofList_toList]

end QuerySieve.Text
