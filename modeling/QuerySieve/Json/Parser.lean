import QuerySieve.Json
import QuerySieve.Text.Decimal
import QuerySieve.Text.Hexadecimal

/-!
# QuerySieve.Json.Parser

Reading a JSON document.

A step consumes characters and returns the rest. Values nest, so the functions recurse on a bound
that starts at the length of the text: every value takes at least one character, hence the bound is
never what makes a text fail. Numerals without a fraction or exponent are integers as far as 64 bits
go, signed or unsigned; every other numeral is a double, `-0` among them.
-/

namespace QuerySieve.Json

/-- White space between tokens. -/
def isSpace (c : Char) : Bool := c == ' ' || c == '\n' || c == '\r' || c == '\t'

/-- The text from the next token on. -/
def skipSpace (cs : List Char) : List Char := cs.dropWhile isSpace

/-- Four hexadecimal digits. -/
def hexFour? : List Char → Option (Nat × List Char)
  | a :: b :: c :: d :: rest => do
    let a ← Text.hexDigit? a
    let b ← Text.hexDigit? b
    let c ← Text.hexDigit? c
    let d ← Text.hexDigit? d
    return (((a * 16 + b) * 16 + c) * 16 + d, rest)
  | _ => none

/-- The character of an escape after `\u`, a second escape included where the first is the first
half of a pair. -/
def unicodeEscape? (cs : List Char) : Option (Char × List Char) := do
  let (n, rest) ← hexFour? cs
  if 0xDC00 ≤ n ∧ n < 0xE000 then none
  else if 0xD800 ≤ n ∧ n < 0xDC00 then
    match rest with
    | '\\' :: 'u' :: rest =>
      let (low, rest) ← hexFour? rest
      if 0xDC00 ≤ low ∧ low < 0xE000 then
        return (Char.ofNat (0x10000 + (n - 0xD800) * 0x400 + (low - 0xDC00)), rest)
      else none
    | _ => none
  else return (Char.ofNat n, rest)

/-- The inside of a string up to the closing quotation mark. -/
def stringBody? : Nat → List Char → Option (List Char × List Char)
  | 0, _ => none
  | _, [] => none
  | fuel + 1, c :: rest =>
    if c = '"' then some ([], rest)
    else if c.toNat < 32 then none
    else if c = '\\' then
      match rest with
      | [] => none
      | e :: rest =>
        if e = 'u' then do
          let (u, rest) ← unicodeEscape? rest
          let (body, rest) ← stringBody? fuel rest
          return (u :: body, rest)
        else do
          let u ← [('"', '"'), ('\\', '\\'), ('/', '/'), ('n', '\n'), ('r', '\r'), ('t', '\t'),
            ('b', Char.ofNat 8), ('f', Char.ofNat 12)].lookup e
          let (body, rest) ← stringBody? fuel rest
          return (u :: body, rest)
    else do
      let (body, rest) ← stringBody? fuel rest
      return (c :: body, rest)

/-- A string whose opening quotation mark has been read. -/
def string? (cs : List Char) : Option (String × List Char) := do
  let (body, rest) ← stringBody? (cs.length + 1) cs
  return (.ofList body, rest)

/-- The digits after a decimal point and the exponent that they and an explicit exponent make. -/
def fraction? : List Char → Option (List Char × List Char)
  | '.' :: rest =>
    let ds := rest.takeWhile Char.isDigit
    if ds = [] then none else some (ds, rest.dropWhile Char.isDigit)
  | rest => some ([], rest)

/-- An explicit exponent, zero if there is none. -/
def exponent? (cs : List Char) : Option (Int × List Char) :=
  match cs with
  | c :: rest =>
    if c = 'e' ∨ c = 'E' then
      let (negative, rest) := match rest with
        | '-' :: rest => (true, rest)
        | '+' :: rest => (false, rest)
        | rest => (false, rest)
      let ds := rest.takeWhile Char.isDigit
      if ds = [] then none
      else
        let n : Int := Nat.ofDigitChars 10 ds 0
        some (if negative then -n else n, rest.dropWhile Char.isDigit)
    else some (0, cs)
  | [] => some (0, [])

/-- A number. -/
def number? (cs : List Char) : Option (Json × List Char) := do
  let (negative, body) := match cs with
    | '-' :: rest => (true, rest)
    | rest => (false, rest)
  let whole := body.takeWhile Char.isDigit
  if whole = [] ∨ (whole.head? = some '0' ∧ 1 < whole.length) then none
  else
    let (part, rest) ← fraction? (body.dropWhile Char.isDigit)
    let (exponent, after) ← exponent? rest
    let n := Nat.ofDigitChars 10 whole 0
    let integral := part = [] ∧ after.length = rest.length
    if integral ∧ !negative ∧ n ≤ Text.nat64Max then return (.int n, after)
    else if integral ∧ negative ∧ 0 < n ∧ Text.int64Min ≤ -n then return (.int (-n), after)
    else
      let digits := Nat.ofDigitChars 10 (whole ++ part) 0
      let x ← Binary64.ofDecimal? negative digits (exponent - part.length)
      return (.real x, after)

/-- A literal word and its value. -/
def word? (cs : List Char) : Option (Json × List Char) :=
  [("null", Json.null), ("true", .bool true), ("false", .bool false)].findSome? fun (w, value) =>
    if w.toList.isPrefixOf cs then some (value, cs.drop w.length) else none

mutual

/-- A value and the text after it. -/
def value? : Nat → List Char → Option (Json × List Char)
  | 0, _ => none
  | fuel + 1, cs =>
    match skipSpace cs with
    | '"' :: rest => (string? rest).map fun (s, rest) => (.str s, rest)
    | '[' :: rest =>
      match skipSpace rest with
      | ']' :: rest => some (.arr [], rest)
      | _ => (items? fuel rest).map fun (items, rest) => (.arr items, rest)
    | '\x7b' :: rest =>
      match skipSpace rest with
      | '\x7d' :: rest => some (.obj [], rest)
      | _ => (members? fuel rest).map fun (members, rest) => (object members, rest)
    | c :: rest => if c = '-' ∨ c.isDigit then number? (c :: rest) else word? (c :: rest)
    | [] => none

/-- The items of an array up to its closing bracket. -/
def items? : Nat → List Char → Option (List Json × List Char)
  | 0, _ => none
  | fuel + 1, cs => do
    let (item, rest) ← value? fuel cs
    match skipSpace rest with
    | ',' :: rest =>
      let (items, rest) ← items? fuel rest
      return (item :: items, rest)
    | ']' :: rest => return ([item], rest)
    | _ => none

/-- The members of an object up to its closing brace. -/
def members? : Nat → List Char → Option (List (String × Json) × List Char)
  | 0, _ => none
  | fuel + 1, cs =>
    match skipSpace cs with
    | '"' :: rest => do
      let (key, rest) ← string? rest
      match skipSpace rest with
      | ':' :: rest =>
        let (value, rest) ← value? fuel rest
        match skipSpace rest with
        | ',' :: rest =>
          let (members, rest) ← members? fuel rest
          return ((key, value) :: members, rest)
        | '\x7d' :: rest => return ([(key, value)], rest)
        | _ => none
      | _ => none
    | _ => none

end

/-- The value that the whole text denotes. -/
def parse? (text : String) : Option Json := do
  let cs := text.toList
  let (value, rest) ← value? (cs.length + 1) cs
  if (skipSpace rest).isEmpty then some value else none

end QuerySieve.Json
