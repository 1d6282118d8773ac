import PageOutline.Yaml.Error
import PageOutline.Yaml.Node

/-!
# Merging mappings

A mapping takes in the mappings under its key `<<`: their entries stand before its own, and since
of equal keys the last one wins, its own win. `Graph.flatten` does so for one mapping and for all
that it merges, and the nodes keep the change, so that every alias sees it.
-/

namespace PageOutline.Yaml

/-- The entries of a mapping. -/
def Node.entries : Node → List (Nat × Nat)
  | .mapping _ es => es
  | _ => []

/-- Whether a node is a mapping. -/
def Node.isMapping : Node → Bool
  | .mapping _ _ => true
  | _ => false

namespace Graph

/-- Takes out the first entry under the merge key and gives its value. -/
def takeMerge? (g : Graph) : List (Nat × Nat) → Option (Nat × List (Nat × Nat))
  | [] => none
  | (key, value) :: es =>
    if (g.node key).tag = .merge then some (value, es)
    else (g.takeMerge? es).map fun (source, rest) => (source, (key, value) :: rest)

/-- The key `=` of a mapping is a text from here on. -/
def settleKey (g : Graph) (key : Nat) : Graph :=
  if (g.node key).tag = .value then g.set key ((g.node key).withTag .str) else g

/-- The entries that a node gives where it is merged, once `flatten` has merged what its mappings
merge themselves. Of a list of mappings the last one comes first. -/
def mergedEntries (flatten : Graph → Nat → Except YamlError Graph) (g : Graph) (source : Nat) :
    Except YamlError (List (Nat × Nat) × Graph) :=
  let take (taken : List (Nat × Nat) × Graph) (id : Nat) :
      Except YamlError (List (Nat × Nat) × Graph) :=
    if (taken.2.node id).isMapping then
      (flatten taken.2 id).map fun g => ((g.node id).entries ++ taken.1, g)
    else .error .malformed
  match g.node source with
  | .sequence _ items => items.foldlM take ([], g)
  | _ => take ([], g) source

/-- Merges what is under the merge keys of a mapping, behind entries that it has taken in already.
The first argument bounds the number of merge keys. -/
def mergeInto : Nat → List (Nat × Nat) → Graph → Nat → Except YamlError Graph
  | 0, _, _, _ => .error .tooDeep
  | n + 1, taken, g, id =>
    let es := (g.node id).entries
    match g.takeMerge? es with
    | none =>
      let g := es.foldl (fun g e => g.settleKey e.1) g
      .ok (g.set id (.mapping (g.node id).tag (taken ++ es)))
    | some (source, rest) =>
      match mergedEntries (mergeInto n []) (g.set id (.mapping (g.node id).tag rest)) source with
      | .error e => .error e
      | .ok (more, g) => mergeInto n (taken ++ more) g id

/-- The number of merge keys in all mappings. -/
def mergeCount (g : Graph) : Nat :=
  let isMergeKey (e : Nat × Nat) : Bool := (g.node e.1).tag = .merge
  g.nodes.foldl (fun n node => n + node.entries.countP isMergeKey) 0

/-- Merges what is under the merge keys of a mapping. Every merge key is taken out once, so their
number is a bound. -/
def flatten (g : Graph) (bound id : Nat) : Except YamlError Graph := mergeInto (bound + 1) [] g id

end Graph

end PageOutline.Yaml
