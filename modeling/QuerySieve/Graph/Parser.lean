import QuerySieve.Graph
import QuerySieve.Schema
import QuerySieve.Text.Alphanumeric

/-!
# QuerySieve.Graph.Parser

Reading the text of a graph against a model.

The text is a comma-separated list of relation names, each with such a list in parentheses or
without. White space may stand before any name or mark and at the end. Every name has to be a
relation of the entity that the names around it have led to.

The functions recurse on a bound for the length of what is left to read; a list takes at least one
character, so a list that is asked for with the bound at zero finds an empty rest, where a name is
expected.
-/

namespace QuerySieve.FetchGraph

/-- The number of bytes of the characters. -/
def byteLength (cs : List Char) : Nat := cs.foldr (fun c n => c.utf8Size + n) 0

/-- The text from the next name or mark on. -/
def skipBlank (cs : List Char) : List Char := cs.dropWhile Text.isBlank

/-- What follows a mark, if the mark is next. -/
def eat? (mark : Char) (cs : List Char) : Option (List Char) :=
  match skipBlank cs with
  | c :: rest => if c = mark then some rest else none
  | [] => none

/-- The entity that a relation of this name leads to. -/
def relationTarget (reg : Registry) (owner : Schema) (name : String) : Except GraphFault Schema :=
  match owner.field? name with
  | none => .error (.unknownRelation name owner.name)
  | some field =>
    match field.relation? with
    | none => .error (.notRelation name owner.name)
    | some relation =>
      match reg.schema relation.target with
      | .ok target => .ok target
      | .error _ => .error (.missingTarget relation.target)

/-- The fault that a name is expected after the blanks of `rest`, the end of `text`. -/
def nameExpected (text rest : List Char) : GraphFault :=
  .expectedName (byteLength text - byteLength (skipBlank rest))

/-- Reads a list of relations of an entity, and returns it with the rest of the text. -/
def items (reg : Registry) (text : List Char) :
    Nat → Schema → List Char → Except GraphFault (FetchGraph × List Char)
  | 0, _, input => .error (nameExpected text input)
  | bound + 1, owner, input =>
    let name := (skipBlank input).takeWhile Text.isNameChar
    let rest := (skipBlank input).dropWhile Text.isNameChar
    if name = [] then .error (nameExpected text input)
    else do
      let target ← relationTarget reg owner (.ofList name)
      let (children, rest) ← match eat? '(' rest with
        | none => pure (empty, rest)
        | some inner => do
          let (children, rest) ← items reg text bound target inner
          match eat? ')' rest with
          | none => throw .unclosed
          | some rest => pure (children, rest)
      let graph := single (.ofList name) children
      match eat? ',' rest with
      | none => pure (graph, rest)
      | some more =>
        let (others, rest) ← items reg text bound owner more
        pure (graph.merge others, rest)

/-- Reads a whole text as a graph of an entity's relations. -/
def parse (reg : Registry) (root : Schema) (text : String) : Except FilterError FetchGraph :=
  let cs := text.toList
  match items reg cs cs.length root cs with
  | .error fault => .error (.badGraph text fault)
  | .ok (graph, rest) =>
    if skipBlank rest = [] then .ok graph
    else .error (.badGraph text (.trailing (.ofList (skipBlank rest))))

end QuerySieve.FetchGraph
