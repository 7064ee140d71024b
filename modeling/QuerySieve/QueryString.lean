import QuerySieve.Naming
import QuerySieve.Text.Percent

/-!
# QuerySieve.QueryString

The query string of a URL as parameters.

Parameters stand between `&`, each cut at its first `=` into name and value. In both a `+` is a
blank and bytes may be percent-encoded. Question marks before the first parameter are ignored.
-/

namespace QuerySieve.QueryString

/-- A name or value as it is meant. -/
def component (cs : List Char) : String :=
  let spaced := cs.map fun c => if c = '+' then ' ' else c
  .ofList (Text.Utf8.decode (Text.Percent.decode (Text.Utf8.encode spaced)))

/-- Name and value of one parameter; without `=` the value is empty. -/
def pair (cs : List Char) : String × String :=
  (component (cs.takeWhile (· != '=')), component ((cs.dropWhile (· != '=')).drop 1))

/-- The parameters in the order in which they stand. -/
def pairs (query : String) : List (String × String) :=
  let pieces := Text.splitChars '&' (query.toList.dropWhile (· == '?'))
  (pieces.filter fun piece => !piece.isEmpty).map pair

/-- The parameters; of those with one name the last counts. -/
def params (query : String) : Params := .ofList (pairs query)

end QuerySieve.QueryString
