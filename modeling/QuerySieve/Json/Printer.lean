import QuerySieve.Json

/-!
# QuerySieve.Json.Printer

The text of a JSON value: on one line without blanks (`Json.compact`), and with two blanks of
indentation per level (`Json.pretty`).

Control characters, the quotation mark and the backslash are escaped and nothing else is.
-/

namespace QuerySieve.Json

/-- The characters that stand for `c` inside a string. -/
def escapeChar (c : Char) : List Char :=
  if c = '"' then ['\\', '"']
  else if c = '\\' then ['\\', '\\']
  else if c = '\n' then ['\\', 'n']
  else if c = '\r' then ['\\', 'r']
  else if c = '\t' then ['\\', 't']
  else if c.toNat = 8 then ['\\', 'b']
  else if c.toNat = 12 then ['\\', 'f']
  else if c.toNat < 32 then
    ['\\', 'u', '0', '0', Nat.digitChar (c.toNat / 16), Nat.digitChar (c.toNat % 16)]
  else [c]

/-- A string in quotation marks. -/
def quote (s : String) : String := .ofList ('"' :: s.toList.flatMap escapeChar ++ ['"'])

mutual

/-- The text of a value without any blanks. -/
def compact : Json → String
  | .null => "null"
  | .bool b => if b then "true" else "false"
  | .int n => toString n
  | .real x => x.text
  | .str s => quote s
  | .arr items => "[" ++ compactItems items ++ "]"
  | .obj members => "\x7b" ++ compactMembers members ++ "\x7d"

/-- The items of an array, comma-separated. -/
def compactItems : List Json → String
  | [] => ""
  | [item] => compact item
  | item :: items => compact item ++ "," ++ compactItems items

/-- The members of an object, comma-separated. -/
def compactMembers : List (String × Json) → String
  | [] => ""
  | [(key, value)] => quote key ++ ":" ++ compact value
  | (key, value) :: members => quote key ++ ":" ++ compact value ++ "," ++ compactMembers members

end

/-- The start of a line at this depth. -/
def indentation (depth : Nat) : String := .ofList ('\n' :: List.replicate (2 * depth) ' ')

mutual

/-- The text of a value at a depth, one item or member a line; empty ones stay on their line. -/
def prettyAt (depth : Nat) : Json → String
  | .arr [] => "[]"
  | .arr items => "[" ++ prettyItems (depth + 1) items ++ indentation depth ++ "]"
  | .obj [] => "\x7b\x7d"
  | .obj members => "\x7b" ++ prettyMembers (depth + 1) members ++ indentation depth ++ "\x7d"
  | .null => "null"
  | .bool b => if b then "true" else "false"
  | .int n => toString n
  | .real x => x.text
  | .str s => quote s

/-- The items of an array, each on a line of its own. -/
def prettyItems (depth : Nat) : List Json → String
  | [] => ""
  | [item] => indentation depth ++ prettyAt depth item
  | item :: items => indentation depth ++ prettyAt depth item ++ "," ++ prettyItems depth items

/-- The members of an object, each on a line of its own. -/
def prettyMembers (depth : Nat) : List (String × Json) → String
  | [] => ""
  | [(key, value)] => indentation depth ++ quote key ++ ": " ++ prettyAt depth value
  | (key, value) :: members =>
    indentation depth ++ quote key ++ ": " ++ prettyAt depth value ++ ","
      ++ prettyMembers depth members

end

/-- The text of a value over several lines. -/
def pretty (value : Json) : String := prettyAt 0 value

end QuerySieve.Json
