import QuerySieve.Graph.Parser
import QuerySieve.Naming

/-!
# QuerySieve.Graph.Embedded

The graph that a request asks for: its parameter `embedded` lists dotted chains of relations,
separated by commas.

Each chain is folded into the text of a graph, `a.b.c` into `a(b(c))`, and read as such; the graphs
are merged. Blank entries are passed over.
-/

namespace QuerySieve

/-- The relation names of one entry. -/
abbrev EmbeddedPath := List String

namespace EmbeddedPath

/-- The segments of an entry, trimmed; none for a blank entry. -/
def ofEntry? (entry : String) : Option EmbeddedPath :=
  let trimmed := Text.trim entry
  if trimmed = "" then none else some ((Text.split '.' trimmed).map Text.trim)

/-- The text of the graph with this chain: the last name, in parentheses after the one before it,
and so on. While nothing has been written, there is nothing to put in parentheses. -/
def graphText (path : EmbeddedPath) : String :=
  path.foldr (fun outer inner => if inner = "" then outer else outer ++ "(" ++ inner ++ ")") ""

end EmbeddedPath

namespace FetchGraph

/-- The parameter that lists the chains. -/
def embeddedParam : String := "embedded"

/-- Merges the graphs of further chains into a graph. -/
def mergePaths (reg : Registry) (root : Schema) :
    FetchGraph → List EmbeddedPath → Except FilterError FetchGraph
  | graph, [] => .ok graph
  | graph, path :: paths =>
    match parse reg root path.graphText with
    | .error error => .error error
    | .ok further => mergePaths reg root (graph.merge further) paths

/-- The graph of a comma-separated list of chains. -/
def ofEmbedded (reg : Registry) (root : Schema) (raw : String) : Except FilterError FetchGraph :=
  mergePaths reg root empty ((Text.split ',' raw).filterMap EmbeddedPath.ofEntry?)

/-- The graph that the parameters ask for. -/
def ofParams (reg : Registry) (root : Schema) (params : Params) : Except FilterError FetchGraph :=
  match params.get? embeddedParam with
  | some raw => ofEmbedded reg root raw
  | none => .ok empty

end FetchGraph

end QuerySieve
