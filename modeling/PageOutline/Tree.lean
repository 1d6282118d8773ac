import PageOutline.Arena

/-!
# Trees

An arena together with the root that anchors a page's commands. The root carries the sentinel
command and is neither walked over nor counted. `walk` lists the nodes below the root with their
depths and `shape` gives the same nodes as a nested outline of codes.
-/

namespace PageOutline

/-- The codes of a tree, nested as its nodes are. -/
inductive Shape where
  | node (code : Code) (children : List Shape)

/-- The outline of the nodes below one node. The first argument bounds the depth; that a stack may
hold fewer calls than a tree has levels is left aside. -/
def Arena.shapes (a : Arena) : Nat → Nat → List Shape
  | 0, _ => []
  | n + 1, id =>
    (a.childrenOf id).filterMap fun child =>
      a.nodes[child]?.map fun node => .node node.command.code (a.shapes n child)

/-- The nodes on a stack of nodes and depths with all below them, each before its children. The
first argument bounds the number of nodes that are visited. -/
def Arena.walkFrom (a : Arena) : Nat → List (Nat × Nat) → List (Nat × Nat)
  | 0, _ => []
  | _, [] => []
  | n + 1, (id, depth) :: stack =>
    (id, depth) :: a.walkFrom n ((a.childrenOf id).map (·, depth + 1) ++ stack)

/-- A page as a tree: an arena and the node in it that anchors the page. -/
structure Tree where
  arena : Arena
  root : Nat

namespace Tree

/-- Plants a root in an arena. -/
def plant (a : Arena) : Tree :=
  let (root, arena) := a.newNode .sentinel
  { arena, root }

/-- The tree of an empty page. -/
def empty : Tree := plant .empty

/-- The number of nodes other than the root. -/
def size (t : Tree) : Nat := t.arena.size - 1

/-- The nodes of the page's outermost commands. -/
def topLevel (t : Tree) : List Nat := t.arena.childrenOf t.root

/-- Every node below the root, each before its children, with its depth; outermost commands have
depth zero. -/
def walk (t : Tree) : List (Nat × Nat) :=
  t.arena.walkFrom t.arena.size (t.topLevel.map (·, 0))

/-- The nested outline below a node. -/
def shapeBelow (t : Tree) (id : Int) : Except NodeNotFound (List Shape) :=
  (t.arena.get id).map fun n => t.arena.shapes t.arena.size n.id

/-- The nested outline of the page, however deep that is: the room on the stack is left aside, as in
`Arena.shapes`. -/
def shape (t : Tree) : List Shape := t.arena.shapes t.arena.size t.root

end Tree

end PageOutline
