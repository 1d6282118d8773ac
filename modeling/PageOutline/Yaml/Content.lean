import PageOutline.Yaml.Merge
import PageOutline.Yaml.Scalar

/-!
# Contents of nodes

`Graph.contents` finds out what each node of a document holds. Scalars have their values at once;
collections wait in the order in which they are met, and each then looks at its parts. So the
outermost collection that fails decides the error, and within it the first part that does.
-/

namespace PageOutline.Yaml

/-- A key of a mapping. -/
structure Key where
  value : Value
  /-- The node that the value comes from; every word for no number gives one and the same value. -/
  origin? : Option Nat

namespace Key

/-- Whether two keys are one. What is no number equals nothing but itself. -/
def isSame (a b : Key) : Bool :=
  match a.value, b.value with
  | .float .nan, .float .nan => a.origin? == b.origin?
  | v, w => v.sameValue w

/-- Gives a key a part. A key that is there already keeps its place and its form. -/
def setPart (key : Key) (part : Nat) : List (Key × Nat) → List (Key × Nat)
  | [] => [(key, part)]
  | e :: rest => if e.1.isSame key then (e.1, part) :: rest else e :: setPart key part rest

end Key

/-- What a node holds. -/
inductive Content where
  | scalar (key : Key)
  | list (items : List Nat)
  /-- A list of pairs. -/
  | pairs (entries : List (Nat × Nat))
  | dict (entries : List (Key × Nat))
  | set (members : List Key)

namespace Graph

/-- The text of a node where a scalar is wanted: that of a mapping is the one under its key `=`. The
first argument bounds the number of steps. -/
def scalarText (g : Graph) : Nat → Nat → Except YamlError Wording
  | 0, _ => .error .tooDeep
  | n + 1, id =>
    match g.node id with
    | .scalar _ text => .ok text
    | .sequence _ _ => .error .malformed
    | .mapping _ es =>
      match es.find? fun e => (g.node e.1).tag = .value with
      | some (_, value) => g.scalarText n value
      | none => .error .malformed

/-- The value of a node by a tag that is no collection's. -/
def scalarKey (g : Graph) (id : Nat) (tag : Tag) : Except YamlError Key :=
  match tag with
  | .merge | .value | .other _ => .error .malformed
  | tag => do
    let text ← g.scalarText (g.size + 1) id
    if tag = .timestamp ∧ (g.node id).isMapping then .error .nestedTime
    let value ← scalarValue tag text
    let shared := tag = .float ∧ isNanWord text.shown
    return ⟨value, if shared then none else some id⟩

end Graph

/-- How far the contents of a document are known. -/
structure Survey where
  graph : Graph
  /-- What each node holds. A collection that waits counts as empty. -/
  found : Array (Option Content)
  /-- The collections that have been met, in order. -/
  met : Array Nat
  /-- At least the number of merge keys. -/
  mergeBound : Nat

namespace Survey

/-- Nothing is known of any node yet. -/
def start (g : Graph) : Survey := ⟨g, .replicate g.size none, #[], g.mergeCount⟩

/-- What a node holds, as far as it is known. -/
def content? (s : Survey) (id : Nat) : Option Content := s.found.getD id none

/-- Notes what a node holds. -/
def note (s : Survey) (id : Nat) (c : Content) : Survey :=
  { s with found := s.found.setIfInBounds id (some c) }

/-- Meets a collection. -/
def await (s : Survey) (id : Nat) (c : Content) : Survey :=
  { s.note id c with met := s.met.push id }

/-- Meets a node. -/
def meet (s : Survey) (id : Nat) : Except YamlError Survey :=
  if (s.content? id).isSome then .ok s
  else
    match (s.graph.node id).tag with
    | .seq => .ok (s.await id (.list []))
    | .omap => .ok (s.await id (.pairs []))
    | .pairs => .ok (s.await id (.pairs []))
    | .map => .ok (s.await id (.dict []))
    | .set => .ok (s.await id (.set []))
    | tag => (s.graph.scalarKey id tag).map fun key => s.note id (.scalar key)

/-- The key that a node is; a collection is none. -/
def key (s : Survey) (id : Nat) : Except YamlError Key :=
  match s.content? id with
  | some (.scalar key) => .ok key
  | _ => .error .malformed

/-- The only entry of a mapping in a list of pairs. -/
def pair (s : Survey) (id : Nat) : Except YamlError (Nat × Nat) :=
  match s.graph.node id with
  | .mapping _ [e] => .ok e
  | _ => .error .malformed

/-- Meets the keys and values of entries and puts them after others. -/
def meetEntries (s : Survey) (before : List (Key × Nat)) :
    List (Nat × Nat) → Except YamlError (List (Key × Nat) × Survey)
  | [] => .ok (before, s)
  | (k, v) :: es => do
    let s ← s.meet k
    let key ← s.key k
    let s ← s.meet v
    s.meetEntries (key.setPart v before) es

/-- Looks at the parts of a collection. -/
def look (s : Survey) (id : Nat) : Except YamlError Survey :=
  match s.graph.node id with
  | .scalar _ _ => .error .malformed
  | .sequence .seq items => do
    let s ← items.foldlM meet s
    return s.note id (.list items)
  | .sequence tag items =>
    if tag = .omap ∨ tag = .pairs then do
      let (es, s) ← items.foldlM (fun (es, s) item => do
        let (k, v) ← s.pair item
        return ((k, v) :: es, ← (← s.meet k).meet v)) (([] : List (Nat × Nat)), s)
      return s.note id (.pairs es.reverse)
    else .error .malformed
  | .mapping tag _ =>
    if tag = .map ∨ tag = .set then do
      let graph ← s.graph.flatten s.mergeBound id
      let (es, s) ← { s with graph }.meetEntries [] (graph.node id).entries
      return s.note id (if tag = .map then .dict es else .set (es.map (·.1)))
    else .error .malformed

/-- Looks at the collections that have been met, from one of them on. The first argument bounds
their number. -/
def lookFrom : Nat → Nat → Survey → Except YamlError Survey
  | 0, _, s => .ok s
  | n + 1, position, s =>
    match s.met[position]? with
    | none => .ok s
    | some id => do
      let s ← s.look id
      lookFrom n (position + 1) s

end Survey

/-- What the nodes of a document hold, as far as its outermost node leads to them. -/
def Graph.contents (g : Graph) (outermost : Nat) : Except YamlError Survey := do
  let s ← (Survey.start g).meet outermost
  s.lookFrom g.size 0

end PageOutline.Yaml
