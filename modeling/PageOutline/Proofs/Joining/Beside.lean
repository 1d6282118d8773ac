import PageOutline.Proofs.Forest.RoundTrip

/-!
# Trees side by side

Two trees become one when the root of the first takes over the outermost nodes of the second. The
nodes of the second come after those of the first and are numbered on from them. To build the second
tree further is to build the tree of both further, so that it does not matter when they are put
together.
-/

namespace PageOutline

/-- The number of a node when `k` nodes are put between it and the root. The root keeps its
number. -/
def renumber (k id : Nat) : Nat := if id = 0 then 0 else id + k

/-- The root keeps its number. -/
@[simp] theorem renumber_zero (k : Nat) : renumber k 0 = 0 := rfl

/-- Every other node is moved by the number of nodes that are put before it. -/
theorem renumber_of_pos {id : Nat} (h : 0 < id) (k : Nat) : renumber k id = id + k :=
  if_neg (Nat.ne_of_gt h)

/-- Nodes with different numbers keep different numbers. -/
theorem renumber_inj {k i j : Nat} : renumber k i = renumber k j ↔ i = j := by
  unfold renumber
  split <;> split <;> omega

/-- A node among nodes whose ids are changed by a map. -/
def Node.mapIds (g : Nat → Nat) (n : Node) : Node :=
  { n with
    id := g n.id
    parent? := n.parent?.map g
    children := n.children.map g }

/-- Whether a map of ids takes the numbers from `next` on to those from `next'` on, in order. -/
def Shifts (g : Nat → Nat) (next next' : Nat) : Prop := ∀ j, g (next + j) = next' + j

/-- A map that shifts numbers takes the first to the first. -/
theorem Shifts.eq {g : Nat → Nat} {next next' : Nat} (h : Shifts g next next') : g next = next' :=
  h 0

/-- A map that shifts the numbers from one on shifts those from a later one on as well. -/
theorem Shifts.add {g : Nat → Nat} {next next' : Nat} (h : Shifts g next next') (k : Nat) :
    Shifts g (next + k) (next' + k) := fun j => by
  rw [Nat.add_assoc, h, Nat.add_assoc]

/-- Numbers of nodes other than the root are shifted. -/
theorem shifts_renumber {next : Nat} (h : 0 < next) (k : Nat) :
    Shifts (renumber k) next (next + k) := fun j => by
  rw [renumber_of_pos (Nat.add_pos_left h j), Nat.add_right_comm]

/-- A node among nodes with other numbers. -/
def Node.renumbered (k : Nat) (n : Node) : Node :=
  { n with
    id := renumber k n.id
    parent? := n.parent?.map (renumber k)
    children := n.children.map (renumber k) }

/-- Children of a renumbered node are the renumbered children. -/
@[simp] theorem Node.renumbered_addChildren (k : Nat) (n : Node) (ids : List Nat) :
    (n.addChildren ids).renumbered k = (n.renumbered k).addChildren (ids.map (renumber k)) := by
  simp [addChildren, renumbered]

namespace Arena

/-- The nodes of two arenas under the root of the first. -/
def beside (a b : Arena) : Arena :=
  a.attach 0 ((b.childrenOf 0).map (renumber (a.size - 1)))
    (b.nodes.toList.tail.map (·.renumbered (a.size - 1)))

variable {a b : Arena}

/-- Two arenas side by side have one root between them. -/
@[simp] theorem size_beside (a b : Arena) : (a.beside b).size = a.size + (b.size - 1) := by
  rw [beside, size_attach]
  simp [size]

/-- The nodes of the first arena stay. Its root gets further children. -/
theorem getElem?_beside_of_lt {i : Nat} (h : i < a.size) (b : Arena) :
    (a.beside b).nodes[i]? = a.nodes[i]?.map fun n =>
      if i = 0 then n.addChildren ((b.childrenOf 0).map (renumber (a.size - 1))) else n := by
  simp only [beside, getElem?_attach_of_lt h, eq_comm (a := 0)]

/-- The nodes of the second arena are found under their new numbers. -/
theorem getElem?_beside_renumber {id : Nat} (ha : 0 < a.size) (hid : 0 < id) :
    (a.beside b).nodes[renumber (a.size - 1) id]? =
      b.nodes[id]?.map (·.renumbered (a.size - 1)) := by
  have hindex : renumber (a.size - 1) id = a.size + (id - 1) := by
    rw [renumber_of_pos hid]
    omega
  have hnext : id - 1 + 1 = id := by omega
  rw [hindex, beside, getElem?_attach_add]
  simp [hnext]

/-- Every node is one of the first arena or has a new number. -/
theorem ext_beside {w w' : Arena} (ha : 0 < a.size)
    (hfirst : ∀ i, i < a.size → w.nodes[i]? = w'.nodes[i]?)
    (hsecond : ∀ id, 0 < id →
      w.nodes[renumber (a.size - 1) id]? = w'.nodes[renumber (a.size - 1) id]?) : w = w' := by
  obtain ⟨nodes⟩ := w
  obtain ⟨nodes'⟩ := w'
  congr 1
  apply Array.ext_getElem?
  intro i
  by_cases hi : i < a.size
  · exact hfirst i hi
  · have hnode := hsecond (i - (a.size - 1)) (by omega)
    have hnumber : renumber (a.size - 1) (i - (a.size - 1)) = i := by
      rw [renumber_of_pos (by omega)]
      omega
    rwa [hnumber] at hnode

/-- The root lists a new node exactly if it is made under the root. -/
theorem childrenOf_extend {b : Arena} (hb : 0 < b.size) (parent : Nat) (c : Command) :
    (b.extend parent c).childrenOf 0 =
      b.childrenOf 0 ++ if parent = 0 then [b.size] else [] := by
  obtain ⟨n, hn⟩ : ∃ n, b.nodes[0]? = some n := ⟨_, Array.getElem?_eq_getElem hb⟩
  unfold childrenOf
  rw [getElem?_extend_of_lt hb, hn]
  by_cases hparent : parent = 0 <;> simp [hparent, Node.addChildren]

/-- A new node in the second arena is a new node of both. -/
theorem extend_beside (ha : 0 < a.size) (hb : 0 < b.size) (parent : Nat) (c : Command) :
    (a.beside b).extend (renumber (a.size - 1) parent) c = a.beside (b.extend parent c) := by
  have hnew : renumber (a.size - 1) b.size = (a.beside b).size := by
    rw [renumber_of_pos hb, size_beside]
    omega
  refine ext_beside ha (fun i hi => ?_) (fun id hid => ?_)
  · have hold : i < (a.beside b).size := by
      rw [size_beside]
      omega
    have hroot : renumber (a.size - 1) parent = i ↔ parent = 0 ∧ i = 0 := by
      unfold renumber
      split <;> omega
    rw [getElem?_extend_of_lt hold, getElem?_beside_of_lt hi, getElem?_beside_of_lt hi,
      childrenOf_extend hb, Option.map_map]
    congr 1
    funext n
    simp only [Function.comp_apply, hroot]
    by_cases hi0 : i = 0 <;> by_cases hparent : parent = 0 <;> simp [hi0, hparent, hnew]
  · have hlast : renumber (a.size - 1) id = (a.beside b).size ↔ id = b.size := by
      rw [← hnew, renumber_inj]
    rw [getElem?_extend, getElem?_beside_renumber ha hid, getElem?_beside_renumber ha hid,
      getElem?_extend]
    by_cases hid' : id = b.size
    · rw [if_pos (hlast.2 hid'), if_pos hid']
      simp [Node.renumbered, Node.detached, hnew]
    · rw [if_neg (fun h => hid' (hlast.1 h)), if_neg hid', Option.map_map, Option.map_map]
      congr 1
      funext n
      by_cases hparent : parent = id <;> simp [renumber_inj, hparent, hnew]

/-- A change of a node of the second arena that does not concern its place is a change of both. -/
theorem amend_beside (ha : 0 < a.size) {id : Nat} (hid : 0 < id) {f : Node → Node}
    (hf : ∀ n, (f n).renumbered (a.size - 1) = f (n.renumbered (a.size - 1))) :
    (a.beside b).amend (renumber (a.size - 1) id) f = a.beside (b.amend id f) := by
  refine ext_beside ha (fun i hi => ?_) (fun j hj => ?_)
  · have hne : renumber (a.size - 1) id ≠ i := by
      rw [renumber_of_pos hid]
      omega
    have hchildren : (b.amend id f).childrenOf 0 = b.childrenOf 0 := by
      unfold childrenOf
      rw [getElem?_amend, if_neg (Nat.ne_of_gt hid)]
    rw [getElem?_amend, if_neg hne, getElem?_beside_of_lt hi, getElem?_beside_of_lt hi, hchildren]
  · rw [getElem?_amend, getElem?_beside_renumber ha hj, getElem?_beside_renumber ha hj,
      getElem?_amend]
    by_cases hj' : id = j
    · subst hj'
      rw [if_pos rfl, if_pos rfl, Option.map_map, Option.map_map]
      congr 1
      funext n
      exact (hf n).symm
    · rw [if_neg (fun h => hj' (renumber_inj.1 h)), if_neg hj']

/-- A node of the second tree has its command at its new number. -/
theorem commandAt_beside (ha : 0 < a.size) {id : Nat} (hid : 0 < id) :
    (a.beside b).commandAt (renumber (a.size - 1) id) = b.commandAt id := by
  unfold commandAt
  rw [getElem?_beside_renumber ha hid]
  cases b.nodes[id]? <;> rfl

/-- An arena that has nothing but a root adds nothing. -/
theorem beside_root (a : Arena) : a.beside Tree.empty.arena = a := attach_nil a 0

end Arena

/-- The tree of both. -/
def Tree.beside (t u : Tree) : Tree := ⟨t.arena.beside u.arena, t.root⟩

namespace Forest

variable {layer : Layer}

/-- One forest and then another. -/
def append : {layer : Layer} → Forest layer → Forest layer → Forest layer
  | _, nil, g => g
  | _, padding c rest, g => .padding c (rest.append g)
  | _, leaf c rest, g => .leaf c (rest.append g)
  | _, text c lines rest, g => .text c lines (rest.append g)
  | _, route c entries rest, g => .route c entries (rest.append g)
  | _, scope c body arms terminator rest, g => .scope c body arms terminator (rest.append g)
  | _, arm delimiter body rest, g => .arm delimiter body (rest.append g)

/-- The roots of two forests in a row are numbered on from the first to the second. -/
theorem roots_append (f g : Forest layer) (next : Nat) :
    (f.append g).roots next = f.roots next ++ g.roots (next + f.count) := by
  induction f generalizing next with
  | nil => rfl
  | padding c rest ih => exact ih g next
  | leaf c rest ih | text c lines rest ih | route c entries rest ih =>
    rw [append, roots, roots, ih, count, List.cons_append, Nat.add_right_comm, Nat.add_assoc]
  | scope c body arms terminator rest ihBody ihArms ih =>
    rw [append, roots, roots, ih, count, List.cons_append]
    congr 3
    omega
  | arm delimiter body rest ihBody ih =>
    rw [append, roots, roots, ih, count, List.cons_append]
    congr 3
    omega

/-- The nodes of two forests in a row are numbered on from the first to the second. -/
theorem nodes_append (f g : Forest layer) (parent next : Nat) :
    (f.append g).nodes parent next = f.nodes parent next ++ g.nodes parent (next + f.count) := by
  induction f generalizing next with
  | nil => rfl
  | padding c rest ih => exact ih g next
  | leaf c rest ih | text c lines rest ih | route c entries rest ih =>
    rw [append, nodes, nodes, ih, count, List.cons_append, Nat.add_right_comm, Nat.add_assoc]
  | scope c body arms terminator rest ihBody ihArms ih =>
    simp only [append, nodes, ih, count, List.cons_append, List.append_assoc]
    congr 5
    omega
  | arm delimiter body rest ihBody ih =>
    simp only [append, nodes, ih, count, List.cons_append, List.append_assoc]
    congr 4
    omega

/-- The outline of two forests in a row is that of the first and then that of the second. -/
theorem shapes_append (f g : Forest layer) : (f.append g).shapes = f.shapes ++ g.shapes := by
  induction f with
  | nil => rfl
  | padding c rest ih => exact ih g
  | _ => simp_all [append, shapes]

/-- Two forests in a row list the commands of the first and then those of the second. -/
theorem items_append (f g : Forest layer) : (f.append g).items = f.items ++ g.items := by
  induction f with
  | nil => rfl
  | padding c rest ih => exact ih g
  | _ => simp_all [append, items]

/-- The outermost nodes of a forest that is numbered from elsewhere on. -/
theorem roots_map (f : Forest layer) {g : Nat → Nat} {next next' : Nat} (h : Shifts g next next') :
    f.roots next' = (f.roots next).map g := by
  induction f generalizing next next' with
  | nil => rfl
  | padding c rest ih => exact ih h
  | leaf c rest ih | text c lines rest ih | route c entries rest ih =>
    rw [roots, roots, List.map_cons, h.eq, ih (h.add 1)]
  | scope c body arms terminator rest ihBody ihArms ih =>
    rw [roots, roots, List.map_cons, h.eq, ih (((h.add 1).add body.count).add arms.count)]
  | arm delimiter body rest ihBody ih =>
    rw [roots, roots, List.map_cons, h.eq, ih ((h.add 1).add body.count)]

/-- The nodes of a forest that is numbered from elsewhere on. -/
theorem nodes_map (f : Forest layer) {g : Nat → Nat} (parent : Nat) {next next' : Nat}
    (h : Shifts g next next') :
    f.nodes (g parent) next' = (f.nodes parent next).map (·.mapIds g) := by
  induction f generalizing parent next next' with
  | nil => rfl
  | padding c rest ih => exact ih parent h
  | leaf c rest ih | text c lines rest ih | route c entries rest ih =>
    rw [nodes, nodes, List.map_cons, ih parent (h.add 1)]
    simp [Node.mapIds, h.eq]
  | scope c body arms terminator rest ihBody ihArms ih =>
    have hbody := h.add 1
    have harms := hbody.add body.count
    have hbodyNodes := ihBody next hbody
    have harmsNodes := ihArms next harms
    have hrestNodes := ih parent (harms.add arms.count)
    rw [h.eq] at hbodyNodes harmsNodes
    simp only [nodes, List.map_cons, List.map_append, hbodyNodes, harmsNodes, hrestNodes,
      body.roots_map hbody, arms.roots_map harms]
    simp [Node.mapIds, h.eq]
  | arm delimiter body rest ihBody ih =>
    have hbody := h.add 1
    have hbodyNodes := ihBody next hbody
    have hrestNodes := ih parent (hbody.add body.count)
    rw [h.eq] at hbodyNodes
    simp only [nodes, List.map_cons, List.map_append, hbodyNodes, hrestNodes, body.roots_map hbody]
    simp [Node.mapIds, h.eq]

/-- The outermost nodes of a forest that is numbered from a later number on. -/
theorem roots_add (f : Forest layer) (next : Nat) (h : 0 < next) (k : Nat) :
    f.roots (next + k) = (f.roots next).map (renumber k) :=
  f.roots_map (shifts_renumber h k)

/-- The nodes of a forest that is numbered from a later number on. -/
theorem nodes_add (f : Forest layer) (parent next : Nat) (h : 0 < next) (k : Nat) :
    f.nodes (renumber k parent) (next + k) = (f.nodes parent next).map (·.renumbered k) :=
  f.nodes_map parent (shifts_renumber h k)

/-- The trees of two forests side by side are the tree of one forest after the other. -/
theorem tree_append (f g : Forest .body) : (f.append g).tree = f.tree.beside g.tree := by
  have hroots : g.roots (1 + f.count) = (g.roots 1).map (renumber f.count) :=
    g.roots_add 1 Nat.zero_lt_one f.count
  have hnodes : g.nodes 0 (1 + f.count) = (g.nodes 0 1).map (·.renumbered f.count) :=
    g.nodes_add 0 1 Nat.zero_lt_one f.count
  have hchildren : g.tree.arena.childrenOf 0 = g.roots 1 := g.topLevel_tree
  rw [Tree.beside, Arena.beside, hchildren, size_arena_tree, Nat.add_sub_cancel, ← hroots]
  rw [tree, roots_append, nodes_append, hnodes]
  simp [tree, Arena.attach, Node.addChildren, Array.modify, Array.modifyM]

end Forest

end PageOutline
