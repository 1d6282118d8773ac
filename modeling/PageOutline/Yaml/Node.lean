import PageOutline.Yaml.Token
import PageOutline.Yaml.Tag

/-!
# Nodes

What tokens describe: scalars, sequences and mappings, each with its tag. Nodes are numbered and
name their parts by number, so an alias shares the node that it names, and a collection may be part
of itself. Here are the nodes, the properties that may stand before one, and the state in which
tokens are read.
-/

namespace PageOutline.Yaml

/-- A node of a document. -/
inductive Node where
  | scalar (tag : Tag) (text : Wording)
  | sequence (tag : Tag) (items : List Nat)
  | mapping (tag : Tag) (entries : List (Nat × Nat))

namespace Node

/-- The node of a missing scalar. -/
def empty : Node := .scalar .null (.text "")

instance : Inhabited Node := ⟨empty⟩

/-- The tag of a node. -/
def tag : Node → Tag
  | .scalar tag _ => tag
  | .sequence tag _ => tag
  | .mapping tag _ => tag

/-- The node with another tag. -/
def withTag (tag : Tag) : Node → Node
  | .scalar _ text => .scalar tag text
  | .sequence _ items => .sequence tag items
  | .mapping _ es => .mapping tag es

end Node

/-- The nodes of a document; a node stands at its number. -/
structure Graph where
  nodes : Array Node

namespace Graph

/-- A document without nodes. -/
def empty : Graph := ⟨#[]⟩

/-- The number of nodes, which is the number of the next one. -/
def size (g : Graph) : Nat := g.nodes.size

/-- The node with a number. -/
def node (g : Graph) (id : Nat) : Node := g.nodes.getD id .empty

/-- Adds a node and gives its number. -/
def add (g : Graph) (n : Node) : Nat × Graph := (g.size, ⟨g.nodes.push n⟩)

/-- Puts another node in the place of one. -/
def set (g : Graph) (id : Nat) (n : Node) : Graph := ⟨g.nodes.setIfInBounds id n⟩

end Graph

/-- Tokens still to come, with the nodes and the anchors met so far. -/
structure Reading where
  tokens : List Token
  anchors : List (String × Nat)
  graph : Graph

/-- The handles of tags that a document may use. -/
abbrev Handles := List (String × String)

/-- The handles that need no directive. -/
def standardHandles : Handles := [("!", "!"), ("!!", coreStem)]

/-- The properties of a node: an anchor and the name of a tag. -/
structure Properties where
  anchor? : Option String
  tag? : Option String

namespace Properties

/-- No properties at all. -/
def none : Properties := ⟨Option.none, Option.none⟩

/-- Whether there is neither an anchor nor a tag. -/
def isNone (p : Properties) : Bool := p.anchor?.isNone && p.tag?.isNone

/-- Whether the form of the node decides its tag. -/
def isImplicit (p : Properties) : Bool := p.tag?.isNone || p.tag? == some "!"

/-- The tag of a collection. -/
def tagOr (p : Properties) (t : Tag) : Tag :=
  if p.isImplicit then t else Tag.ofText (p.tag?.getD "")

/-- The tag of a scalar. The mark alone makes a quoted scalar count as plain. -/
def scalarTag (p : Properties) (text : Wording) (plain : Bool) : Tag :=
  match p.tag? with
  | .none => if plain then implicitTag text.shown else .str
  | some "!" => implicitTag text.shown
  | some name => .ofText name

end Properties

namespace Reading

/-- Before the first token no node has been made. -/
def start (tokens : List Token) : Reading := ⟨tokens, [], .empty⟩

/-- The next token. -/
def peek (r : Reading) : Token := r.tokens.headD .streamEnd

/-- Goes on behind the next token. -/
def next (r : Reading) : Reading := { r with tokens := r.tokens.tail }

/-- Whether one of some tokens is next. -/
def sees (r : Reading) (ts : List Token) : Bool := ts.contains r.peek

/-- The failure that a token which does not fit stands for. -/
def misfit (r : Reading) : YamlError :=
  match r.peek with
  | .broken e => e
  | _ => .malformed

/-- Adds a node and gives its number. -/
def add (r : Reading) (n : Node) : Nat × Reading :=
  let (id, graph) := r.graph.add n
  (id, { r with graph })

/-- Adds a node that has properties, so that an anchor names it from here on. -/
def define (r : Reading) (p : Properties) (n : Node) : Nat × Reading :=
  let (id, r) := r.add n
  match p.anchor? with
  | some name => (id, { r with anchors := (name, id) :: r.anchors })
  | none => (id, r)

/-- Gives a collection its parts once they have been read. -/
def complete (r : Reading) (id : Nat) (n : Node) : Nat × Reading :=
  (id, { r with graph := r.graph.set id n })

end Reading

/-- The full name of a tag. -/
def resolveTag (handles : Handles) (handle? : Option String) (suffix : String) :
    Except YamlError String :=
  match handle? with
  | none => .ok suffix
  | some h =>
    match handles.lookup h with
    | some stem => .ok (stem ++ suffix)
    | none => .error .malformed

/-- Reads an anchor and a tag in either order. A tag is resolved once it is known whether an anchor
follows. -/
def readProperties (handles : Handles) (r : Reading) : Except YamlError (Properties × Reading) :=
  match r.peek with
  | .anchor name =>
    let r := r.next
    match r.peek with
    | .tag handle? suffix => do
      let tag ← resolveTag handles handle? suffix
      return (⟨some name, some tag⟩, r.next)
    | _ => .ok (⟨some name, none⟩, r)
  | .tag handle? suffix =>
    let r := r.next
    match r.peek with
    | .broken e => .error e
    | .anchor name => do
      let tag ← resolveTag handles handle? suffix
      return (⟨some name, some tag⟩, r.next)
    | _ => do
      let tag ← resolveTag handles handle? suffix
      return (⟨none, some tag⟩, r)
  | _ => .ok (.none, r)

end PageOutline.Yaml
