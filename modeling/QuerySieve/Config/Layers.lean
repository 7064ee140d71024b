import QuerySieve.Json.Parser
import QuerySieve.Text

/-!
# QuerySieve.Config.Layers

Configuration in layers: documents laid over each other, and the environment as such a document.

A later layer counts before an earlier one. Objects are merged member by member at every depth; any
other value, null included, takes the place of what is below it.
-/

namespace QuerySieve

/-- Members with one of them set: where a member of that name stands, otherwise at the end. -/
def Json.putMember (key : String) (value : Json) : List (String × Json) → List (String × Json)
  | [] => [(key, value)]
  | (k, v) :: members =>
    if k = key then (key, value) :: members else (k, v) :: putMember key value members

mutual

/-- A value with another laid over it. -/
def Json.overlay : Json → Json → Json
  | .obj below, .obj above => .obj (overlayMembers below above)
  | _, above => above

/-- Members with others laid over them, one after the other. -/
def Json.overlayMembers : List (String × Json) → List (String × Json) → List (String × Json)
  | below, [] => below
  | below, (key, value) :: above =>
    let value := match Entries.get? key below with
      | some under => under.overlay value
      | none => value
    overlayMembers (putMember key value below) above

end

namespace Config

/-- What the name of an environment variable starts with that belongs to the configuration, in any
case. -/
def environmentMark : String := "URLFILTER__"

/-- Cuts at every two underscores, from the left. They separate the names of nested members in the
name of a variable. -/
def cutName : List Char → List (List Char)
  | '_' :: '_' :: cs => [] :: cutName cs
  | c :: cs =>
    match cutName cs with
    | piece :: pieces => (c :: piece) :: pieces
    | [] => [[c]]
  | [] => [[]]

/-- The names of the members that a variable of this name stands for, outermost first and in lower
case; none if it is no part of the configuration. An empty name ends the list. -/
def memberPath (name : String) : List String :=
  match Text.dropStart? (Text.lower environmentMark) (Text.lower name) with
  | none => []
  | some rest =>
    let pieces := (cutName rest.toList).flatMap (Text.splitChars '.')
    (pieces.takeWhile fun piece => !piece.isEmpty).map String.ofList

/-- The value that a variable's text stands for: a truth value, a number, or the text without the
white space around it. -/
def variableValue (text : String) : Json :=
  let trimmed := Text.trim text
  if trimmed = "true" then .bool true
  else if trimmed = "false" then .bool false
  else match Text.nat64? trimmed, Text.int64? trimmed, Json.parse? trimmed with
    | some n, _, _ => .int n
    | none, some n, _ => .int n
    | none, none, some (.real x) => .real x
    | none, none, _ => .str trimmed

/-- A value inside objects of one member each. -/
def nested (path : List String) (value : Json) : Json :=
  path.foldr (fun key inner => .obj [(key, inner)]) value

/-- The environment as a document. -/
def environment (bindings : List (String × String)) : Json :=
  bindings.foldl (fun document (name, text) =>
    match memberPath name with
    | [] => document
    | path => document.overlay (nested path (variableValue text))) (.obj [])

end Config

end QuerySieve
