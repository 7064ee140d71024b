import QuerySieve.Text
import QuerySieve.Text.Decimal

/-!
# QuerySieve.Duration

Lengths of time, in the words of people: `1m 30s`, `250ms`, `1day`.

A duration is read as a sum of spans, each a number and a unit; the number may have a fraction, and
white space may stand anywhere but inside a unit. It is written with the largest units first, each
once, where a month is 30.44 days and a year 365.25.
-/

namespace QuerySieve

/-- A length of time. -/
structure Duration where
  nanoseconds : Nat
  deriving DecidableEq, Repr

namespace Duration

/-- The nanoseconds of a second. -/
def second : Nat := 1000000000

/-- The seconds of a day. -/
def day : Nat := 86400

/-- The seconds of a month. -/
def month : Nat := 2630016

/-- The seconds of a year. -/
def year : Nat := 31557600

/-- A unit of time by any of its names, in nanoseconds. -/
def unit? (name : String) : Option Nat :=
  (units.find? fun u => u.1.contains name).map (·.2)
where
  /-- The units with their names. -/
  units : List (List String × Nat) :=
    [(["nanos", "nsec", "ns"], 1),
      (["usec", "us", "µs"], 1000),
      (["millis", "msec", "ms"], 1000000),
      (["seconds", "second", "secs", "sec", "s"], second),
      (["minutes", "minute", "mins", "min", "m"], 60 * second),
      (["hours", "hour", "hrs", "hr", "h"], 3600 * second),
      (["days", "day", "d"], day * second),
      (["weeks", "week", "wks", "wk", "w"], 7 * day * second),
      (["months", "month", "M"], month * second),
      (["years", "year", "yrs", "yr", "y"], year * second)]

/-- A number of units in nanoseconds. Numbers, and what they come to in nanoseconds or, for units
from a second on, in seconds, are limited to 64 bits. -/
def whole? (n unit : Nat) : Option Nat :=
  let counted := if unit < second then n * unit else n * (unit / second)
  if n ≤ Text.nat64Max ∧ counted ≤ Text.nat64Max then some (n * unit) else none

/-- A character of a number: a digit, or white space. -/
def isNumberChar (c : Char) : Bool := c.isDigit || Text.isBlank c

/-- A character of a unit. -/
def isUnitChar (c : Char) : Bool := c.isAlpha || c == 'µ'

/-- The digits that a text begins with, and the rest. -/
def cutDigits (cs : List Char) : List Char × List Char :=
  ((cs.takeWhile isNumberChar).filter Char.isDigit, cs.dropWhile isNumberChar)

/-- The digits after a point, if there is one, and the rest. -/
def cutFraction? : List Char → Option (List Char × List Char)
  | '.' :: cs =>
    let (digits, rest) := cutDigits cs
    if digits = [] then none else some (digits, rest)
  | cs => some ([], cs)

/-- The first span in nanoseconds, and the rest. -/
def span? (cs : List Char) : Option (Nat × List Char) := do
  let (digits, rest) := cutDigits cs
  let n ← Text.digits? digits
  let (fraction, rest) ← cutFraction? rest
  let unit ← unit? (.ofList (rest.takeWhile isUnitChar))
  let amount ← whole? n unit
  let rest := rest.dropWhile isUnitChar
  if (rest.head?.map isNumberChar).getD true then
    return (amount + Nat.ofDigitChars 10 fraction 0 * unit / Nat.pow 10 fraction.length, rest)
  else none

/-- The sum of spans, at least one. Each takes a character at least, which bounds their number. -/
def sum? : Nat → List Char → Option Nat
  | 0, _ => none
  | fuel + 1, cs => do
    let (amount, rest) ← span? cs
    let rest := rest.dropWhile Text.isBlank
    if rest = [] then return amount else return amount + (← sum? fuel rest)

/-- Reads a duration; zero needs no unit. -/
def parse? (text : String) : Option Duration :=
  if text = "0" then some ⟨0⟩
  else do
    let total ← sum? (text.length + 1) (text.toList.dropWhile Text.isBlank)
    if total / second ≤ Text.nat64Max then return ⟨total⟩ else none

/-- A number with a unit; none for zero. -/
def part (n : Nat) (name : String) : List String := if n = 0 then [] else [toString n ++ name]

/-- A number with a unit whose name has a plural. -/
def pluralPart (n : Nat) (name : String) : List String :=
  part n (if 1 < n then name ++ "s" else name)

/-- Writes a duration. -/
def text (d : Duration) : String :=
  let seconds := d.nanoseconds / second
  let rest := d.nanoseconds % second
  let inYear := seconds % year
  let inMonth := inYear % month
  let inDay := inMonth % day
  let parts := pluralPart (seconds / year) "year" ++ pluralPart (inYear / month) "month"
    ++ pluralPart (inMonth / day) "day" ++ part (inDay / 3600) "h" ++ part (inDay % 3600 / 60) "m"
    ++ part (inDay % 60) "s" ++ part (rest / 1000000) "ms" ++ part (rest / 1000 % 1000) "us"
    ++ part (rest % 1000) "ns"
  if parts = [] then "0s" else " ".intercalate parts

/-- Whole milliseconds. -/
def milliseconds (d : Duration) : Nat := d.nanoseconds / 1000000

end Duration

end QuerySieve
