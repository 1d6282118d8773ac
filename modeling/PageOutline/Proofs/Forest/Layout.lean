import PageOutline.Proofs.Forest.Basic

/-!
# The layout of a forest in an arena

The nodes of a forest lie in the arena of its tree one after the other. Walking over the tree visits
them in that order, and the outline of the tree is the nesting of the forest.
-/

namespace PageOutline

namespace Arena

/-- The nodes of an arena from an id on begin with a block of nodes. -/
def Holds (a : Arena) : Nat → List Node → Prop
  | _, [] => True
  | id, n :: block => a.nodes[id]? = some n ∧ a.Holds (id + 1) block

variable {a : Arena} {id : Nat}

/-- Of two blocks in a row the second stands where the first ends. -/
theorem holds_append {block block' : List Node} :
    a.Holds id (block ++ block') ↔ a.Holds id block ∧ a.Holds (id + block.length) block' := by
  induction block generalizing id with
  | nil => simp [Holds]
  | cons n block ih =>
    simp only [List.cons_append, Holds, ih, List.length_cons, and_assoc]
    rw [show id + 1 + block.length = id + (block.length + 1) by omega]

/-- An arena holds a block where the block was put. -/
theorem holds_toArray (before block : List Node) :
    Arena.Holds ⟨(before ++ block).toArray⟩ before.length block := by
  induction block generalizing before with
  | nil => trivial
  | cons n block ih =>
    refine ⟨by simp, ?_⟩
    have h := ih (before ++ [n])
    rwa [List.append_assoc, List.length_append, List.singleton_append] at h

/-- A node of a block is found under its id when the ids of the block are numbered on. -/
theorem getElem?_of_holds {block : List Node} (h : a.Holds id block)
    (hids : block.map (·.id) = List.range' id block.length) {n : Node} (hn : n ∈ block) :
    a.nodes[n.id]? = some n := by
  induction block generalizing id with
  | nil => cases hn
  | cons m block ih =>
    obtain ⟨hnode, hrest⟩ := h
    rw [List.map_cons, List.length_cons, List.range'_succ, List.cons.injEq] at hids
    rcases List.mem_cons.1 hn with rfl | hn
    · rw [hids.1, hnode]
    · exact ih hrest hids.2 hn

/-- The children of a node are those that it lists. -/
theorem childrenOf_of_some {n : Node} (h : a.nodes[id]? = some n) :
    a.childrenOf id = n.children.toList := by
  simp [childrenOf, h]

/-- A walk visits the top of its stack and goes on with the children of that node. -/
theorem walkFrom_cons {n : Node} (h : a.nodes[id]? = some n) (fuel depth : Nat)
    (stack : List (Nat × Nat)) :
    a.walkFrom (fuel + 1) ((id, depth) :: stack) =
      (id, depth) :: a.walkFrom fuel (n.children.toList.map (·, depth + 1) ++ stack) := by
  rw [walkFrom, childrenOf_of_some h]

/-- The outline of the nodes with the given ids. -/
def outline (a : Arena) (fuel : Nat) (ids : List Nat) : List Shape :=
  ids.filterMap fun id => a.nodes[id]?.map fun n => .node n.command.code (a.shapes fuel id)

/-- The outlines of two lists of nodes stand in a row. -/
theorem outline_append (fuel : Nat) (ids ids' : List Nat) :
    a.outline fuel (ids ++ ids') = a.outline fuel ids ++ a.outline fuel ids' :=
  List.filterMap_append

/-- The outline of a node has its code and, within it, the outline of its children. -/
theorem outline_cons {n : Node} (h : a.nodes[id]? = some n) (fuel : Nat) (ids : List Nat) :
    a.outline (fuel + 1) (id :: ids) =
      .node n.command.code (a.outline fuel n.children.toList) :: a.outline (fuel + 1) ids := by
  simp [outline, h, shapes, childrenOf_of_some h]

end Arena

namespace Forest

variable {a : Arena} {layer : Layer}

/-- The nesting of a forest as an outline of codes. -/
def shapes : {layer : Layer} → Forest layer → List Shape
  | _, nil => []
  | _, padding _ rest => rest.shapes
  | _, leaf c rest => .node c.code [] :: rest.shapes
  | _, text c _ rest => .node c.code [] :: rest.shapes
  | _, route c _ rest => .node c.code [] :: rest.shapes
  | _, scope c body arms _ rest => .node c.code (body.shapes ++ arms.shapes) :: rest.shapes
  | _, arm delimiter body rest => .node delimiter.code body.shapes :: rest.shapes

/-- An arena has the nodes of a scope exactly if it has the node of the opening command and,
numbered on after it, those of the body, of the arms and of what follows. -/
theorem holds_scope {c terminator : Command} {body rest : Forest .body} {arms : Forest .arms}
    {parent next : Nat} :
    a.Holds next ((scope c body arms terminator rest).nodes parent next) ↔
      a.nodes[next]? = some ⟨next, c, some parent,
        (body.roots (next + 1) ++ arms.roots (next + 1 + body.count)).toArray, #[]⟩ ∧
      a.Holds (next + 1) (body.nodes next (next + 1)) ∧
      a.Holds (next + 1 + body.count) (arms.nodes next (next + 1 + body.count)) ∧
      a.Holds (next + 1 + body.count + arms.count)
        (rest.nodes parent (next + 1 + body.count + arms.count)) := by
  simp only [nodes, Arena.Holds, Arena.holds_append, length_nodes]

/-- An arena has the nodes of an arm exactly if it has the node of the delimiter and, numbered on
after it, those of the body and of the other arms. -/
theorem holds_arm {delimiter : Command} {body : Forest .body} {rest : Forest .arms}
    {parent next : Nat} :
    a.Holds next ((arm delimiter body rest).nodes parent next) ↔
      a.nodes[next]? =
        some ⟨next, delimiter, some parent, (body.roots (next + 1)).toArray, #[]⟩ ∧
      a.Holds (next + 1) (body.nodes next (next + 1)) ∧
      a.Holds (next + 1 + body.count) (rest.nodes parent (next + 1 + body.count)) := by
  simp only [nodes, Arena.Holds, Arena.holds_append, length_nodes]

/-- The tree of a forest has its nodes from number one on. -/
theorem holds_tree (f : Forest .body) : f.tree.arena.Holds 1 (f.nodes 0 1) :=
  Arena.holds_toArray [_] _

/-- The tree of a forest has as many nodes as the forest counts. -/
theorem size_tree (f : Forest .body) : f.tree.size = f.count := by
  simp [tree, Tree.size, Arena.size]

/-- The arena of a forest's tree has the root and the forest's nodes. -/
theorem size_arena_tree (f : Forest .body) : f.tree.arena.size = f.count + 1 := by
  simp [tree, Arena.size]

/-- The outermost nodes of a forest's tree are the roots of the forest. -/
theorem topLevel_tree (f : Forest .body) : f.tree.topLevel = f.roots 1 := by
  simp [tree, Tree.topLevel, Arena.childrenOf]

/-- The nodes of a forest are numbered one after the other. -/
theorem map_id_nodes (f : Forest layer) (parent next : Nat) :
    (f.nodes parent next).map (·.id) = List.range' next f.count := by
  induction f generalizing parent next with
  | nil => rfl
  | padding c rest ih => exact ih parent next
  | leaf c rest ih | text c lines rest ih | route c entries rest ih =>
    simp [nodes, count, ih, List.range'_succ]
  | scope c body arms terminator rest ihBody ihArms ih =>
    simp only [nodes, count, List.map_cons, List.map_append, ihBody, ihArms, ih, List.range'_succ]
    rw [← List.append_assoc, List.range'_append_1, Nat.add_assoc (next + 1), List.range'_append_1]
  | arm delimiter body rest ihBody ih =>
    simp [nodes, count, ihBody, ih, List.range'_succ]

/-- The nodes of a forest are those that its tree has under their ids. -/
theorem getElem?_tree (f : Forest .body) {n : Node} (h : n ∈ f.nodes 0 1) :
    f.tree.arena.nodes[n.id]? = some n := by
  refine Arena.getElem?_of_holds f.holds_tree ?_ h
  rw [map_id_nodes, length_nodes]

/-- Walking over the outermost nodes of a forest visits its nodes in the order of their numbers and
then what else is on the stack. -/
theorem walkFrom_roots (f : Forest layer) {parent next : Nat}
    (h : a.Holds next (f.nodes parent next)) (fuel depth : Nat) (stack : List (Nat × Nat)) :
    (a.walkFrom (f.count + fuel) ((f.roots next).map (·, depth) ++ stack)).map Prod.fst =
      List.range' next f.count ++ (a.walkFrom fuel stack).map Prod.fst := by
  induction f generalizing parent next fuel depth stack with
  | nil => simp [count, roots]
  | padding c rest ih => exact ih h fuel depth stack
  | leaf c rest ih | text c lines rest ih | route c entries rest ih =>
    obtain ⟨hnode, hrest⟩ := h
    rw [roots, count, Nat.add_right_comm, List.map_cons, List.cons_append,
      Arena.walkFrom_cons hnode, List.map_cons, List.range'_succ, List.cons_append]
    exact congrArg _ (ih hrest fuel depth stack)
  | scope c body arms terminator rest ihBody ihArms ih =>
    obtain ⟨hnode, hbody, harms, hrest⟩ := holds_scope.1 h
    have hfuel : body.count + arms.count + rest.count + 1 + fuel =
        body.count + (arms.count + (rest.count + fuel)) + 1 := by omega
    rw [roots, count, hfuel, List.map_cons, List.cons_append, Arena.walkFrom_cons hnode,
      List.map_cons, List.range'_succ, List.cons_append]
    refine congrArg _ ?_
    dsimp only
    rw [List.map_append, List.append_assoc, ihBody hbody, ihArms harms, ih hrest]
    simp only [← List.append_assoc]
    rw [List.range'_append_1, Nat.add_assoc (next + 1), List.range'_append_1]
  | arm delimiter body rest ihBody ih =>
    obtain ⟨hnode, hbody, hrest⟩ := holds_arm.1 h
    have hfuel : body.count + rest.count + 1 + fuel = body.count + (rest.count + fuel) + 1 := by
      omega
    rw [roots, count, hfuel, List.map_cons, List.cons_append, Arena.walkFrom_cons hnode,
      List.map_cons, List.range'_succ, List.cons_append]
    refine congrArg _ ?_
    dsimp only
    rw [ihBody hbody, ih hrest, ← List.append_assoc, List.range'_append_1]

/-- A walk over the tree of a forest visits every node once, in the order of their numbers. -/
theorem walk_tree (f : Forest .body) : f.tree.walk.map Prod.fst = List.range' 1 f.tree.size := by
  have h := f.walkFrom_roots f.holds_tree 1 0 []
  rw [List.append_nil] at h
  rw [Tree.walk, topLevel_tree, size_arena_tree, h, size_tree]
  simp [Arena.walkFrom]

/-- The outline of the outermost nodes of a forest, when there is room for its depth. -/
theorem outline_roots (f : Forest layer) {parent next : Nat}
    (h : a.Holds next (f.nodes parent next)) {fuel : Nat} (hfuel : f.count ≤ fuel) :
    a.outline fuel (f.roots next) = f.shapes := by
  induction f generalizing parent next fuel with
  | nil => rfl
  | padding c rest ih => exact ih h hfuel
  | leaf c rest ih | text c lines rest ih | route c entries rest ih =>
    obtain ⟨hnode, hrest⟩ := h
    rw [count] at hfuel
    obtain ⟨fuel, rfl⟩ := Nat.exists_eq_add_of_le' (Nat.le_trans (Nat.le_add_left 1 _) hfuel)
    rw [roots, Arena.outline_cons hnode, ih hrest (by omega)]
    simp [shapes, Arena.outline]
  | scope c body arms terminator rest ihBody ihArms ih =>
    obtain ⟨hnode, hbody, harms, hrest⟩ := holds_scope.1 h
    rw [count] at hfuel
    obtain ⟨fuel, rfl⟩ := Nat.exists_eq_add_of_le' (Nat.le_trans (Nat.le_add_left 1 _) hfuel)
    rw [roots, Arena.outline_cons hnode, ih hrest (by omega)]
    dsimp only
    rw [Arena.outline_append, ihBody hbody (by omega), ihArms harms (by omega)]
    rfl
  | arm delimiter body rest ihBody ih =>
    obtain ⟨hnode, hbody, hrest⟩ := holds_arm.1 h
    rw [count] at hfuel
    obtain ⟨fuel, rfl⟩ := Nat.exists_eq_add_of_le' (Nat.le_trans (Nat.le_add_left 1 _) hfuel)
    rw [roots, Arena.outline_cons hnode, ih hrest (by omega)]
    dsimp only
    rw [ihBody hbody (by omega)]
    rfl

/-- The tree of a forest nests as the forest does. -/
theorem shape_tree (f : Forest .body) : f.tree.shape = f.shapes := by
  have h := f.outline_roots f.holds_tree (Nat.le_refl f.count)
  rw [← h, Tree.shape, size_arena_tree, Arena.shapes]
  rw [show f.tree.arena.childrenOf f.tree.root = f.roots 1 from f.topLevel_tree]
  rfl

end Forest

end PageOutline
