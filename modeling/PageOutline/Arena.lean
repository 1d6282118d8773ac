import PageOutline.Command

/-!
# Arenas

An arena owns the nodes of one page. Nodes are numbered from zero in the order in which they are
made, keep their number for good and refer to each other by number. A node never moves: `append`
makes a new last child, and no operation takes a child away.
-/

namespace PageOutline

/-- A command placed in a tree. Companions are commands that are stored with it but are not its
children. -/
structure Node where
  id : Nat
  command : Command
  parent? : Option Nat
  children : Array Nat
  companions : Array Command

/-- A new node that belongs nowhere yet. -/
def Node.detached (id : Nat) (command : Command) : Node := ⟨id, command, none, #[], #[]⟩

/-- The failure of looking a node up. -/
structure NodeNotFound where
  id : Value

/-- The nodes of one page; a node stands at the index that is its id. -/
structure Arena where
  nodes : Array Node

namespace Arena

/-- An arena without nodes. -/
def empty : Arena := ⟨#[]⟩

/-- The number of nodes, which is the id of the next one. -/
def size (a : Arena) : Nat := a.nodes.size

/-- The ids given out so far are the numbers below the size. -/
def contains (a : Arena) (id : Int) : Bool := 0 ≤ id && id < a.size

/-- The node with an id. -/
def get? (a : Arena) (id : Int) : Option Node :=
  if 0 ≤ id then a.nodes[id.toNat]? else none

/-- The node with an id, or the failure that names the id. The failure is the same for every id;
that its message cannot be put together for an integer with too many digits is left aside. -/
def get (a : Arena) (id : Int) : Except NodeNotFound Node :=
  match a.get? id with
  | some n => .ok n
  | none => .error ⟨.int id⟩

/-- Makes a detached node. -/
def newNode (a : Arena) (command : Command) : Nat × Arena :=
  (a.size, ⟨a.nodes.push (.detached a.size command)⟩)

/-- Changes the node with an id. An id without a node leaves the arena as it is. -/
def update (a : Arena) (id : Int) (f : Node → Node) : Except NodeNotFound Unit × Arena :=
  if a.contains id then (.ok (), ⟨a.nodes.modify id.toNat f⟩) else (.error ⟨.int id⟩, a)

/-- Makes a node for a command as the last child of `parent`. -/
def append (a : Arena) (parent : Int) (command : Command) : Except NodeNotFound Nat × Arena :=
  let id := a.size
  match a.update parent fun n => { n with children := n.children.push id } with
  | (.ok (), ⟨nodes⟩) =>
    (.ok id, ⟨nodes.push { Node.detached id command with parent? := some parent.toNat }⟩)
  | (.error e, a) => (.error e, a)

/-- Gives a node another command. -/
def setCommand (a : Arena) (id : Int) (command : Command) : Except NodeNotFound Unit × Arena :=
  a.update id fun n => { n with command }

/-- Adds a companion after those that a node has. -/
def addCompanion (a : Arena) (id : Int) (command : Command) : Except NodeNotFound Unit × Arena :=
  a.update id fun n => { n with companions := n.companions.push command }

/-- The children of a node, in order. -/
def children (a : Arena) (id : Int) : Except NodeNotFound (List Nat) :=
  (a.get id).map (·.children.toList)

/-- The parent of a node, if it has one. -/
def parent? (a : Arena) (id : Int) : Except NodeNotFound (Option Nat) :=
  (a.get id).map (·.parent?)

/-- The command of a node. -/
def command (a : Arena) (id : Int) : Except NodeNotFound Command :=
  (a.get id).map (·.command)

/-- The companions of a node, in order. -/
def companions (a : Arena) (id : Int) : Except NodeNotFound (List Command) :=
  (a.get id).map (·.companions.toList)

/-- The children of a node that exists, none otherwise. -/
def childrenOf (a : Arena) (id : Nat) : List Nat :=
  match a.nodes[id]? with
  | some n => n.children.toList
  | none => []

/-- The nodes on a stack with all below them, each before its children. The first argument bounds
the number of nodes that are visited. -/
def visit (a : Arena) : Nat → List Nat → List Nat
  | 0, _ => []
  | _, [] => []
  | n + 1, id :: stack => id :: a.visit n (a.childrenOf id ++ stack)

/-- What a descent from the ids on a stack hands out, each id before what is below it, and how it
ends. An id is handed out before its node is looked up. The first argument bounds the number of ids
that are handed out. -/
def descend (a : Arena) : Nat → List Int → List Int × Except NodeNotFound Unit
  | 0, _ => ([], .ok ())
  | _, [] => ([], .ok ())
  | n + 1, id :: stack =>
    match a.get id with
    | .error e => ([id], .error e)
    | .ok node =>
      let (ids, ending) := a.descend n (node.children.toList.map Int.ofNat ++ stack)
      (id :: ids, ending)

/-- A descent from one id. From an id of no node it hands out that id and then fails. -/
def descent (a : Arena) (id : Int) : List Int × Except NodeNotFound Unit :=
  a.descend (a.size + 1) [id]

/-- A node and everything below it, each before its children: what a `descent` hands out if it does
not fail. -/
def descendants (a : Arena) (id : Int) : Except NodeNotFound (List Nat) :=
  (a.get id).map fun n => a.visit a.size [n.id]

/-- The number of steps from a node to its topmost ancestor, at most the first argument. -/
def climb (a : Arena) : Nat → Nat → Nat
  | 0, _ => 0
  | n + 1, id =>
    match a.nodes[id]?.bind (·.parent?) with
    | some p => a.climb n p + 1
    | none => 0

/-- The number of ancestors of a node. -/
def depth (a : Arena) (id : Int) : Except NodeNotFound Nat :=
  (a.get id).map fun n => a.climb a.size n.id

/-- An id of no node is handed out before its descent fails. -/
theorem descent_of_error {a : Arena} {id : Int} {e : NodeNotFound} (h : a.get id = .error e) :
    a.descent id = ([id], .error e) := by
  rw [descent, descend, h]

/-- The ids given out are the numbers below the size. -/
theorem contains_eq_true_iff {a : Arena} {id : Int} :
    a.contains id = true ↔ 0 ≤ id ∧ id < a.size := by
  simp [contains]

/-- Exactly the ids given out lead to a node. -/
theorem isSome_get?_iff {a : Arena} {id : Int} :
    (a.get? id).isSome ↔ a.contains id = true := by
  rw [contains_eq_true_iff]
  unfold get? size
  split
  next h => simp [h]
  next h => simp [h]

/-- A new node makes the arena one node larger. -/
@[simp] theorem size_newNode (a : Arena) (c : Command) : (a.newNode c).2.size = a.size + 1 := by
  simp [newNode, size]

end Arena

end PageOutline
