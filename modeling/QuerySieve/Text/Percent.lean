import QuerySieve.Text.Hexadecimal
import QuerySieve.Text.Utf8

/-!
# QuerySieve.Text.Percent

Percent-encoding: a character that may not stand for itself is written as its bytes, each as `%` and
two hexadecimal digits.

Which characters may stand for themselves depends on the place, so encoding takes a test. Decoding
works on bytes; a `%` without two digits after it stands for itself.
-/

namespace QuerySieve.Text.Percent

/-- A byte, written. -/
def encodeByte (b : UInt8) : List Char :=
  ['%', upperHexDigit (b.toNat / 16), upperHexDigit (b.toNat % 16)]

/-- The characters, those that do not pass the test encoded. -/
def encode (plain : Char → Bool) (cs : List Char) : List Char :=
  cs.flatMap fun c => if plain c then [c] else (String.utf8EncodeChar c).flatMap encodeByte

/-- The value of two bytes that are hexadecimal digits. -/
def pair? (a b : UInt8) : Option UInt8 := do
  let high ← hexDigit? (Char.ofNat a.toNat)
  let low ← hexDigit? (Char.ofNat b.toNat)
  return UInt8.ofNat (high * 16 + low)

/-- The bytes that are meant. -/
def decode : List UInt8 → List UInt8
  | p :: a :: b :: rest =>
    if p = 0x25 then
      match pair? a b with
      | some byte => byte :: decode rest
      | none => p :: decode (a :: b :: rest)
    else p :: decode (a :: b :: rest)
  | [p, a] => [p, a]
  | [p] => [p]
  | [] => []

end QuerySieve.Text.Percent
