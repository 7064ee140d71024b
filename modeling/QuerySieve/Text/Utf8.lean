/-!
# QuerySieve.Text.Utf8

Texts as bytes in UTF-8, and bytes of any origin as text.

Reading never fails. What is no encoding of a character becomes U+FFFD, one for each longest piece
that could have begun one; the byte that broke the piece off is read afresh.
-/

namespace QuerySieve.Text.Utf8

/-- The bytes of a text. -/
def encode (cs : List Char) : List UInt8 := cs.flatMap String.utf8EncodeChar

/-- The character in place of bytes that encode none. -/
def replacement : Char := Char.ofNat 0xFFFD

/-- A character of which bytes are still to come. -/
structure Partial where
  /-- What the bytes so far contribute. -/
  value : Nat
  /-- How many bytes are missing, at least one. -/
  missing : Nat
  /-- The least next byte that continues. -/
  low : Nat := 0x80
  /-- The greatest next byte that continues. -/
  high : Nat := 0xBF

/-- What a byte begins: a character, part of one, or nothing. Bounds on the second byte exclude
overlong forms, surrogates and what lies beyond the last character. -/
def begin (b : UInt8) : List Char × Option Partial :=
  let n := b.toNat
  if n < 0x80 then ([Char.ofNat n], none)
  else if 0xC2 ≤ n ∧ n ≤ 0xDF then ([], some { value := n - 0xC0, missing := 1 })
  else if 0xE0 ≤ n ∧ n ≤ 0xEF then
    ([], some {
      value := n - 0xE0, missing := 2
      low := if n = 0xE0 then 0xA0 else 0x80
      high := if n = 0xED then 0x9F else 0xBF })
  else if 0xF0 ≤ n ∧ n ≤ 0xF4 then
    ([], some {
      value := n - 0xF0, missing := 3
      low := if n = 0xF0 then 0x90 else 0x80
      high := if n = 0xF4 then 0x8F else 0xBF })
  else ([replacement], none)

/-- What a byte adds to what has been read before it. -/
def step (state : Option Partial) (b : UInt8) : List Char × Option Partial :=
  match state with
  | none => begin b
  | some p =>
    if p.low ≤ b.toNat ∧ b.toNat ≤ p.high then
      let value := p.value * 64 + (b.toNat - 0x80)
      if p.missing ≤ 1 then ([Char.ofNat value], none)
      else ([], some { value, missing := p.missing - 1 })
    else
      let (cs, next) := begin b
      (replacement :: cs, next)

/-- Reads bytes after a part of a character. -/
def decodeFrom : Option Partial → List UInt8 → List Char
  | none, [] => []
  | some _, [] => [replacement]
  | state, b :: bs =>
    let (cs, next) := step state b
    cs ++ decodeFrom next bs

/-- The text of bytes. -/
def decode (bytes : List UInt8) : List Char := decodeFrom none bytes

end QuerySieve.Text.Utf8
