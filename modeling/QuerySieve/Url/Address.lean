import QuerySieve.Text.Decimal
import QuerySieve.Text.Hexadecimal
import QuerySieve.Text

/-!
# QuerySieve.Url.Address

Network addresses in the host of a URL.

An IPv4 address is a number below 2³², written as up to four parts of which the last fills all bytes
that are left; parts may be decimal, octal or hexadecimal. An IPv6 address is eight pieces of 16
bits. Of each there is one way to write it: four decimal parts, and lower-case pieces with the first
of the longest runs of zeros, if longer than one, written as `::`.
-/

namespace QuerySieve.Url

/-! ## IPv4 -/

/-- The value of digits in a base. -/
def digitsIn? (base : Nat) (cs : List Char) : Option Nat :=
  cs.foldlM (fun n c => do
    let d ← Text.hexDigit? c
    if d < base then return n * base + d else none) 0

/-- The value of one part of an address; `0x` alone is zero. -/
def addressPart? : List Char → Option Nat
  | [] => none
  | '0' :: 'x' :: cs => digitsIn? 16 cs
  | '0' :: 'X' :: cs => digitsIn? 16 cs
  | '0' :: c :: cs => digitsIn? 8 (c :: cs)
  | cs => digitsIn? 10 cs

/-- The parts of a name; one dot at the end does not count. -/
def addressParts (name : List Char) : List (List Char) :=
  let parts := Text.splitChars '.' name
  if parts.length > 1 ∧ parts.getLast? = some [] then parts.dropLast else parts

/-- Does the last part of a name look like a number? Such a name has to be an address. -/
def endsInNumber (name : List Char) : Bool :=
  match (addressParts name).getLast? with
  | some (c :: cs) => (c :: cs).all Char.isDigit || (addressPart? (c :: cs)).isSome
  | _ => false

/-- The address that parts give. -/
def ipv4OfParts? : List Nat → Option Nat
  | [a] => if a < 0x100000000 then some a else none
  | [a, b] => if a < 0x100 ∧ b < 0x1000000 then some (a * 0x1000000 + b) else none
  | [a, b, c] =>
    if a < 0x100 ∧ b < 0x100 ∧ c < 0x10000 then some (a * 0x1000000 + b * 0x10000 + c) else none
  | [a, b, c, d] =>
    if a < 0x100 ∧ b < 0x100 ∧ c < 0x100 ∧ d < 0x100 then
      some (a * 0x1000000 + b * 0x10000 + c * 0x100 + d)
    else none
  | _ => none

/-- The address of a name. -/
def ipv4? (name : List Char) : Option Nat :=
  ((addressParts name).mapM addressPart?).bind ipv4OfParts?

/-- An address in four decimal parts. -/
def ipv4Text (address : Nat) : String :=
  ".".intercalate
    ([0x1000000, 0x10000, 0x100, 1].map fun unit => toString (address / unit % 0x100))

/-! ## IPv6 -/

/-- A piece: one to four hexadecimal digits. -/
def piece? (cs : List Char) : Option Nat :=
  if cs = [] ∨ 4 < cs.length then none else digitsIn? 16 cs

/-- A decimal byte without needless zeros before it. -/
def byte? (cs : List Char) : Option Nat := do
  let n ← Text.digits? cs
  if n < 256 ∧ (cs.length = 1 ∨ cs.head? ≠ some '0') then return n else none

/-- The last pieces of an address, two of them if they are written as an IPv4 address. -/
def lastPieces? (cs : List Char) : Option (List Nat) :=
  if cs.contains '.' then
    match (Text.splitChars '.' cs).mapM byte? with
    | some [a, b, c, d] => some [a * 256 + b, c * 256 + d]
    | _ => none
  else (piece? cs).map fun n => [n]

/-- The pieces of a colon-separated list. -/
def pieces? (cs : List Char) : Option (List Nat) :=
  if cs = [] then some []
  else do
    let parts := Text.splitChars ':' cs
    let initial ← parts.dropLast.mapM piece?
    let last ← lastPieces? (parts.getLast?.getD [])
    return initial ++ last

/-- What stands before and after the first `::`. -/
def cutAtGap? : List Char → Option (List Char × List Char)
  | ':' :: ':' :: rest => some ([], rest)
  | c :: rest => (cutAtGap? rest).map fun (before, after) => (c :: before, after)
  | [] => none

/-- The eight pieces of an address. A gap stands for at least one zero; before it no IPv4 address
can stand. -/
def ipv6? (cs : List Char) : Option (List Nat) :=
  match cutAtGap? cs with
  | none => do
    let pieces ← pieces? cs
    if pieces.length = 8 then return pieces else none
  | some (before, after) => do
    if before.contains '.' then none
    let left ← pieces? before
    let right ← pieces? after
    let given := left.length + right.length
    if given < 8 then return left ++ List.replicate (8 - given) 0 ++ right else none

/-- A number in lower-case hexadecimal. -/
def lowerHex (n : Nat) : String := .ofList (Nat.toDigits 16 n)

/-- How many zeros a list begins with. -/
def zeroRun (pieces : List Nat) : Nat := (pieces.takeWhile (· == 0)).length

/-- The length of the longest run of zeros. -/
def longestZeroRun : List Nat → Nat
  | [] => 0
  | n :: pieces => max (zeroRun (n :: pieces)) (longestZeroRun pieces)

/-- The pieces before and after the first run of zeros of this length. -/
def cutAtZeros (length : Nat) : List Nat → List Nat × List Nat
  | [] => ([], [])
  | n :: pieces =>
    if zeroRun (n :: pieces) = length then ([], (n :: pieces).drop length)
    else
      let (before, after) := cutAtZeros length pieces
      (n :: before, after)

/-- Pieces in hexadecimal between colons. -/
def piecesText (pieces : List Nat) : String := ":".intercalate (pieces.map lowerHex)

/-- An address as it is written. -/
def ipv6Text (pieces : List Nat) : String :=
  let run := longestZeroRun pieces
  if run < 2 then piecesText pieces
  else
    let (before, after) := cutAtZeros run pieces
    piecesText before ++ "::" ++ piecesText after

end QuerySieve.Url
