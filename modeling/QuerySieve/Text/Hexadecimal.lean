/-!
# QuerySieve.Text.Hexadecimal

Hexadecimal digits: of escapes in documents, of percent-encoded bytes and of network addresses.
-/

namespace QuerySieve.Text

/-- The value of a hexadecimal digit. -/
def hexDigit? (c : Char) : Option Nat :=
  if c.isDigit then some (c.toNat - 48)
  else if 'a' ≤ c ∧ c ≤ 'f' then some (c.toNat - 87)
  else if 'A' ≤ c ∧ c ≤ 'F' then some (c.toNat - 55)
  else none

/-- The digit of a value below 16, letters in upper case. -/
def upperHexDigit (n : Nat) : Char := (Nat.digitChar n).toUpper

end QuerySieve.Text
