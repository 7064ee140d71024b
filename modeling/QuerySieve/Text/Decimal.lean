/-!
# QuerySieve.Text.Decimal

Integers in decimal: the numerals that a request may use for a 64-bit integer, and their values.

A numeral is an optional single sign and at least one ASCII digit; the value has to fit. An unsigned
numeral admits `+` but no `-`, not even before zero. Writing is `toString`; what is written reads
back (`int64?_toString`).
-/

namespace QuerySieve.Text

/-- The least signed 64-bit integer. -/
def int64Min : Int := -0x8000000000000000

/-- The greatest signed 64-bit integer. -/
def int64Max : Int := 0x7FFFFFFFFFFFFFFF

/-- The greatest unsigned 64-bit integer. -/
def nat64Max : Nat := 0xFFFFFFFFFFFFFFFF

/-- The greatest unsigned 32-bit integer. -/
def nat32Max : Nat := 0xFFFFFFFF

/-- The value of a run of ASCII digits, at least one. -/
def digits? (cs : List Char) : Option Nat :=
  if cs ≠ [] ∧ cs.all Char.isDigit then some (Nat.ofDigitChars 10 cs 0) else none

/-- The value, if it is a signed 64-bit integer. -/
def fitInt64? (n : Int) : Option Int :=
  if int64Min ≤ n ∧ n ≤ int64Max then some n else none

theorem fitInt64?_of_le {n : Int} (h : int64Min ≤ n ∧ n ≤ int64Max) : fitInt64? n = some n :=
  if_pos h

/-- Reads a signed 64-bit integer. -/
def int64? (s : String) : Option Int :=
  match s.toList with
  | [] => none
  | c :: ds =>
    if c = '-' then (digits? ds).bind fun n => fitInt64? (-(n : Int))
    else (digits? (if c = '+' then ds else c :: ds)).bind fun n => fitInt64? n

/-- Reads an unsigned 64-bit integer. -/
def nat64? (s : String) : Option Nat :=
  match s.toList with
  | [] => none
  | c :: ds =>
    (digits? (if c = '+' then ds else c :: ds)).bind fun n =>
      if n ≤ nat64Max then some n else none

theorem digits?_toDigits (n : Nat) : digits? (Nat.toDigits 10 n) = some n := by
  have hall : (Nat.toDigits 10 n).all Char.isDigit = true := by
    rw [List.all_eq_true]
    exact fun c hc => Nat.isDigit_of_mem_toDigits (by omega) (by omega) hc
  have hne : Nat.toDigits 10 n ≠ [] := Nat.toDigits_ne_nil
  simp only [digits?, hall, hne, ne_eq, not_false_eq_true, and_self, if_true]
  rw [Nat.ofDigitChars_ten_toDigits]

/-- A numeral does not begin with a sign. -/
theorem toDigits_head_isDigit (n : Nat) :
    ∃ c cs, Nat.toDigits 10 n = c :: cs ∧ c.isDigit := by
  cases h : Nat.toDigits 10 n with
  | nil => exact absurd h Nat.toDigits_ne_nil
  | cons c cs =>
    exact ⟨c, cs, rfl, Nat.isDigit_of_mem_toDigits (b := 10) (by omega) (by omega)
      (by rw [h]; exact List.mem_cons_self ..)⟩

theorem int64?_toString_natCast {m : Nat} (h : fitInt64? (m : Int) = some (m : Int)) :
    int64? (toString (m : Int)) = some (m : Int) := by
  obtain ⟨c, cs, hc, hd⟩ := toDigits_head_isDigit m
  have hplus : c ≠ '+' := by rintro rfl; exact absurd hd (by decide)
  have hminus : c ≠ '-' := by rintro rfl; exact absurd hd (by decide)
  have htext : (toString (m : Int)).toList = c :: cs := by
    rw [← hc]; exact Nat.toList_repr
  have hdig : digits? (c :: cs) = some m := by rw [← hc]; exact digits?_toDigits m
  simp only [int64?, htext, if_neg hplus, if_neg hminus, hdig, Option.bind_some, h]

theorem int64?_toString_negSucc {m : Nat} (h : fitInt64? (Int.negSucc m) = some (Int.negSucc m)) :
    int64? (toString (Int.negSucc m)) = some (Int.negSucc m) := by
  have htext : (toString (Int.negSucc m)).toList = '-' :: Nat.toDigits 10 (m + 1) := by
    have hrepr : toString (Int.negSucc m) = "-" ++ (m + 1).repr := rfl
    simp [hrepr, Nat.toList_repr]
  have hneg : fitInt64? (-((m + 1 : Nat) : Int)) = some (Int.negSucc m) := by
    rw [← h]; congr 1
  unfold int64?
  rw [htext]
  simp only [if_true, digits?_toDigits]
  rw [Option.bind_some, hneg]

/-- What is written for a signed integer reads back. -/
theorem int64?_toString {n : Int} (h : int64Min ≤ n ∧ n ≤ int64Max) :
    int64? (toString n) = some n := by
  cases n with
  | ofNat m => exact int64?_toString_natCast (fitInt64?_of_le h)
  | negSucc m => exact int64?_toString_negSucc (fitInt64?_of_le h)

end QuerySieve.Text
