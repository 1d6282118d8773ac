import PageOutline.Value.Knot
import PageOutline.Yaml.Content
import PageOutline.Yaml.Document
import PageOutline.Yaml.Lexer

/-!
# Values of documents

`Yaml.load` reads a text as one value. An alias stands for the value of its node, which is put
together once; where some collection is part of itself every collection becomes a knot, named by the
number of its node.
-/

namespace PageOutline.Yaml

/-- The value with some content, its parts by the given function. -/
def Content.assemble {m : Type → Type} [Monad m] (part : Nat → m Value) : Content → m Value
  | .scalar key => pure key.value
  | .list items => return .list (← items.mapM part)
  | .pairs es => return .list (← es.mapM fun (k, v) => return .tuple [← part k, ← part v])
  | .dict es => return .dict (← es.mapM fun (key, v) => return (key.value, ← part v))
  | .set members => pure (.set (members.map (·.value)))

namespace Survey

/-- Values that have been put together. -/
abbrev Memo := Array (Option Value)

/-- The value of a node none of whose parts goes deeper than the first argument says. -/
def value? (s : Survey) : Nat → Nat → StateT Memo Option Value
  | 0, _ => failure
  | n + 1, id => do
    match (← get).getD id none with
    | some v => return v
    | none =>
      let c ← s.content? id
      let v ← c.assemble (s.value? n)
      modify fun memo => memo.setIfInBounds id (some v)
      return v

/-- The value of a node within some others, where collections may contain themselves. -/
def knot (s : Survey) : Nat → List Nat → Nat → Value
  | 0, _, _ => .null
  | n + 1, outer, id =>
    if outer.contains id then .again id
    else
      match s.content? id with
      | some (.scalar key) => key.value
      | some c => .knot id (Id.run (c.assemble (s.knot n (id :: outer))))
      | none => .null

/-- The value of a node. Parts go no deeper than there are nodes, unless some collection contains
itself. -/
def value (s : Survey) (id : Nat) : Value :=
  let depth := s.graph.size + 1
  match (s.value? depth id).run (.replicate s.graph.size none) with
  | some (v, _) => v
  | none => s.knot depth [] id

end Survey

/-- Reads a text as one value; a text without a document is null. -/
def load (source : Source) : Except YamlError Value := do
  match ← readText (Token.ofSource source) with
  | (none, _) => return .null
  | (some id, graph) => return (← graph.contents id).value id

end PageOutline.Yaml
