/-!
# QuerySieve.Binary64

Double-precision numbers as their 64 bits, with exact integer arithmetic throughout.

Rows of a database may hold such numbers. They are copied through, bound as parameters and used as
keys, so this module needs three things only: the number nearest to a decimal (`ofDecimal?`) or to
an integer (`ofInt`), the shortest decimal that reads back (`shortest`), and the bits in
hexadecimal. A finite number is `m · 2 ^ q` (`significand`, `scale`).
-/

namespace QuerySieve

/-- A double-precision number, by its bits: sign, 11 bits of exponent, 52 bits of fraction. -/
structure Binary64 where
  bits : UInt64
  deriving DecidableEq, Repr, Inhabited

namespace Binary64

/-- The weight of the sign bit, the highest. -/
def signWeight : Nat := 0x8000000000000000

/-- The weight of the lowest bit of the exponent, above the fraction. -/
def exponentWeight : Nat := 0x10000000000000

/-- Is the sign bit set? -/
def negative (x : Binary64) : Bool := x.bits.toNat / signWeight == 1

/-- The biased exponent. -/
def exponentBits (x : Binary64) : Nat := x.bits.toNat / exponentWeight % 0x800

/-- The fraction. -/
def fractionBits (x : Binary64) : Nat := x.bits.toNat % exponentWeight

/-- The integer `m` of `m · 2 ^ q`. -/
def significand (x : Binary64) : Nat :=
  if x.exponentBits = 0 then x.fractionBits else x.fractionBits + exponentWeight

/-- The exponent `q` of `m · 2 ^ q`. -/
def scale (x : Binary64) : Int := (max x.exponentBits 1 : Nat) - 1075

/-- The bits of the greatest finite magnitude, plus one. -/
def infinityBits : Nat := 0x7FF * exponentWeight

/-- A magnitude, by its bits, with a sign. -/
def withSign (negative : Bool) (magnitude : Nat) : Binary64 :=
  ⟨UInt64.ofNat (if negative then magnitude + signWeight else magnitude)⟩

/-- The quotient rounded to the nearest integer, a half to the even one. -/
def divNearestEven (num den : Nat) : Nat :=
  let q := num / den
  let r := num % den
  if 2 * r < den then q
  else if den < 2 * r then q + 1
  else q + q % 2

/-- `num / den` times `2 ^ (-e)`, as a fraction. -/
def scaled (num den : Nat) (e : Int) : Nat × Nat :=
  if 0 ≤ e then (num, den * Nat.pow 2 e.toNat) else (num * Nat.pow 2 (-e).toNat, den)

/-- The magnitude nearest to `num / den`, a half going to the even significand; none beyond the
greatest finite one. The bits of a magnitude count up with it, so a carry out of the significand is
right as it stands. -/
def magnitude? (num den : Nat) : Option Nat :=
  if num = 0 then some 0
  else
    let guess : Int := (num.log2 : Int) - den.log2 - 53
    let (n, d) := scaled num den guess
    let e := max (-1074) (if 2 * exponentWeight ≤ n / d then guess + 1 else guess)
    let (n, d) := scaled num den e
    let bits := (e + 1074).toNat * exponentWeight + divNearestEven n d
    if bits < infinityBits then some bits else none

/-- The number nearest to `digits · 10 ^ exponent`; none if it is too great. -/
def ofDecimal? (negative : Bool) (digits : Nat) (exponent : Int) : Option Binary64 :=
  let top := exponent + (Nat.toDigits 10 digits).length
  if digits = 0 ∨ top < -400 then some (withSign negative 0)
  else if 400 < top then none
  else
    (if 0 ≤ exponent then magnitude? (digits * Nat.pow 10 exponent.toNat) 1
      else magnitude? digits (Nat.pow 10 (-exponent).toNat)).map (withSign negative)

/-- The number nearest to an integer; integers too great for one become zero. -/
def ofInt (n : Int) : Binary64 := (ofDecimal? (n < 0) n.natAbs 0).getD (withSign false 0)

/-- Sixteen hexadecimal digits. -/
def hex (x : Binary64) : String :=
  let ds := Nat.toDigits 16 x.bits.toNat
  .ofList (List.replicate (16 - ds.length) '0' ++ ds)

/-! ## The shortest decimal -/

/-- Decimal digits and the power of ten of the last one. -/
structure Decimal where
  digits : Nat
  exponent : Int
  deriving DecidableEq, Repr

/-- `num / den` times `10 ^ (-k)`, as a fraction. -/
def scaledTen (num den : Nat) (k : Int) : Nat × Nat :=
  if 0 ≤ k then (num, den * Nat.pow 10 k.toNat) else (num * Nat.pow 10 (-k).toNat, den)

/-- The exponent of the greatest power of ten that does not exceed `num / den`. -/
def tenExponent (num den : Nat) : Int :=
  let guess := ((num.log2 : Int) - den.log2) * 30103 / 100000
  let reached (k : Int) : Bool := let (n, d) := scaledTen num den k; d ≤ n
  ([guess + 2, guess + 1, guess, guess - 1].find? reached).getD (guess - 2)

/-- The decimal with the fewest digits that reads back as this number, of those the nearest, a tie
going to the even digit. Zero has no such form and gives the digit 0. -/
def shortest (x : Binary64) : Decimal :=
  let m := x.significand
  if m = 0 then ⟨0, 0⟩
  else
    -- quarters of a unit: the value is `4 m`, its neighbours lie 4 or, below a power of two, 2 away
    let below := if x.fractionBits = 0 ∧ 1 < x.exponentBits then 1 else 2
    let unit : Nat × Nat :=
      if 2 ≤ x.scale then (Nat.pow 2 (x.scale - 2).toNat, 1)
      else (1, Nat.pow 2 (2 - x.scale).toNat)
    let num := 4 * m * unit.1
    let low := (4 * m - below) * unit.1
    let high := (4 * m + 2) * unit.1
    let closed := m % 2 == 0
    let top := tenExponent num unit.2
    let attempt (count : Nat) : Option Decimal :=
      let k := top + 1 - count
      -- the value and both ends of its interval, over one denominator, in units of `10 ^ k`
      let (v, d) := scaledTen num unit.2 k
      let (lo, _) := scaledTen low unit.2 k
      let (hi, _) := scaledTen high unit.2 k
      let inside (c : Nat) : Bool :=
        if closed then lo ≤ c * d && c * d ≤ hi else lo < c * d && c * d < hi
      let c := v / d
      let near := if 2 * (v % d) < d ∨ (2 * (v % d) = d ∧ c % 2 = 0) then c else c + 1
      let far := if near = c then c + 1 else c
      if inside near then some ⟨near, k⟩ else if inside far then some ⟨far, k⟩ else none
    ((List.range 17).findSome? fun i => attempt (i + 1)).getD ⟨m, x.scale⟩

/-- The decimal without trailing zero digits. -/
def Decimal.strip : Nat → Decimal → Decimal
  | 0, x => x
  | fuel + 1, x =>
    if x.digits ≠ 0 ∧ x.digits % 10 = 0 then strip fuel ⟨x.digits / 10, x.exponent + 1⟩ else x

/-- The text of a finite number: the shortest digits that read back, positional from `1e-5` up to
below `1e16` and then always with a fraction, otherwise with an exponent. -/
def text (x : Binary64) : String :=
  let d := x.shortest.strip 17
  let ds := Nat.toDigits 10 d.digits
  let point : Int := ds.length + d.exponent
  let body : List Char :=
    if d.digits = 0 then ['0', '.', '0']
    else if 0 ≤ d.exponent ∧ point ≤ 16 then
      ds ++ List.replicate d.exponent.toNat '0' ++ ['.', '0']
    else if 0 < point ∧ point ≤ 16 then
      ds.take point.toNat ++ '.' :: ds.drop point.toNat
    else if -5 < point ∧ point ≤ 0 then
      '0' :: '.' :: List.replicate (-point).toNat '0' ++ ds
    else
      let exponent := (toString (point - 1)).toList
      match ds with
      | [d] => d :: 'e' :: exponent
      | d :: rest => d :: '.' :: rest ++ 'e' :: exponent
      | [] => []
  .ofList (if x.negative then '-' :: body else body)

end Binary64

end QuerySieve
