import PageOutline.Arena

/-!
# Growth of arenas

On ids that lead to a node the operations of an arena cannot fail. `extend` makes a last child and
`amend` changes a node; the failing operations are equal to these wherever their id is valid.
-/

namespace PageOutline

/-- A node with further children after those that it has. -/
def Node.addChildren (n : Node) (ids : List Nat) : Node :=
  { n with children := n.children ++ ids.toArray }

/-- Children that are added in two steps may be added in one. -/
@[simp] theorem Node.addChildren_addChildren (n : Node) (ids ids' : List Nat) :
    (n.addChildren ids).addChildren ids' = n.addChildren (ids ++ ids') := by
  simp [addChildren]

namespace Arena

/-- The arena with one more node, the last child of another. -/
def extend (a : Arena) (parent : Nat) (c : Command) : Arena :=
  ⟨(a.nodes.modify parent fun n => { n with children := n.children.push a.size }).push
    { Node.detached a.size c with parent? := some parent }⟩

/-- The arena with one node changed. -/
def amend (a : Arena) (id : Nat) (f : Node → Node) : Arena := ⟨a.nodes.modify id f⟩

/-- The command of a node, and the sentinel where there is no node. -/
def commandAt (a : Arena) (id : Nat) : Command := (a.nodes[id]?.map (·.command)).getD .sentinel

/-- The command at a number is that of the node there. -/
theorem commandAt_of_some {a : Arena} {id : Nat} {n : Node} (h : a.nodes[id]? = some n) :
    a.commandAt id = n.command := by
  simp [commandAt, h]

/-- A new child makes the arena one node larger. -/
@[simp] theorem size_extend (a : Arena) (parent : Nat) (c : Command) :
    (a.extend parent c).size = a.size + 1 := by
  simp [extend, size]

/-- A node that is changed stays one node. -/
@[simp] theorem size_amend (a : Arena) (id : Nat) (f : Node → Node) :
    (a.amend id f).size = a.size := by
  simp [amend, size]

/-- At the number of a node an update succeeds and amends that node. -/
theorem update_eq {a : Arena} {id : Nat} (h : id < a.size) (f : Node → Node) :
    a.update id f = (.ok (), a.amend id f) := by
  have hcontains : a.contains id = true := contains_eq_true_iff.2 ⟨by omega, by omega⟩
  rw [update, if_pos hcontains]
  rfl

/-- Under a node an append succeeds, gives the next number and extends the arena. -/
theorem append_eq {a : Arena} {parent : Nat} (h : parent < a.size) (c : Command) :
    a.append parent c = (.ok a.size, a.extend parent c) := by
  simp only [append, update_eq h]
  rfl

/-- A node that is changed twice may be changed once. -/
theorem amend_amend (a : Arena) (id : Nat) (f g : Node → Node) :
    (a.amend id f).amend id g = a.amend id (g ∘ f) := by
  unfold amend
  congr 1
  apply Array.ext_getElem?
  intro i
  simp only [Array.getElem?_modify]
  split <;> simp

/-- A change that leaves a node as it is leaves the arena as it is. -/
theorem amend_id (a : Arena) (id : Nat) {f : Node → Node}
    (h : ∀ n, a.nodes[id]? = some n → f n = n) :
    a.amend id f = a := by
  obtain ⟨nodes⟩ := a
  unfold amend
  congr 1
  apply Array.ext_getElem?
  intro i
  rw [Array.getElem?_modify]
  split
  next hi =>
    subst hi
    cases hn : nodes[id]? with
    | none => rfl
    | some n => simp [h n hn]
  next => rfl

/-- Changes that do the same to a node do the same to the arena. -/
theorem amend_congr {a : Arena} {id : Nat} {n : Node} (h : a.nodes[id]? = some n)
    {f g : Node → Node} (hfg : f n = g n) : a.amend id f = a.amend id g := by
  unfold amend
  congr 1
  apply Array.ext_getElem?
  intro i
  rw [Array.getElem?_modify, Array.getElem?_modify]
  split
  next hi =>
    subst hi
    rw [h, Option.map_some, Option.map_some, hfg]
  next => rfl

/-- Gives a node another command. -/
def withCommand (a : Arena) (id : Nat) (c : Command) : Arena :=
  a.amend id fun n => { n with command := c }

/-- Adds companions to those that a node has. -/
def withCompanions (a : Arena) (id : Nat) (cs : List Command) : Arena :=
  a.amend id fun n => { n with companions := n.companions ++ cs.toArray }

/-- Another command for a node makes no nodes. -/
@[simp] theorem size_withCommand (a : Arena) (id : Nat) (c : Command) :
    (a.withCommand id c).size = a.size := size_amend ..

/-- Companions make no nodes. -/
@[simp] theorem size_withCompanions (a : Arena) (id : Nat) (cs : List Command) :
    (a.withCompanions id cs).size = a.size := size_amend ..

/-- At the number of a node setting its command succeeds. -/
theorem setCommand_eq {a : Arena} {id : Nat} (h : id < a.size) (c : Command) :
    a.setCommand id c = (.ok (), a.withCommand id c) := update_eq h _

/-- At the number of a node adding a companion succeeds. -/
theorem addCompanion_eq {a : Arena} {id : Nat} (h : id < a.size) (c : Command) :
    a.addCompanion id c = (.ok (), a.withCompanions id [c]) := by
  rw [addCompanion, update_eq h]
  simp [withCompanions]

/-- Of two commands that a node is given the last one stays. -/
theorem withCommand_withCommand (a : Arena) (id : Nat) (c d : Command) :
    (a.withCommand id c).withCommand id d = a.withCommand id d := amend_amend ..

/-- A node that gets the command it has stays as it is. -/
theorem withCommand_commandAt (a : Arena) (id : Nat) : a.withCommand id (a.commandAt id) = a := by
  apply amend_id
  intro n hn
  simp [commandAt, hn]

/-- The command that a node was given is its command. -/
@[simp] theorem commandAt_withCommand {a : Arena} {id : Nat} (h : id < a.size) (c : Command) :
    (a.withCommand id c).commandAt id = c := by
  have hn : a.nodes[id]? = some a.nodes[id] := Array.getElem?_eq_getElem h
  simp [commandAt, withCommand, amend, Array.getElem?_modify, hn]

/-- To add no companions is to do nothing. -/
@[simp] theorem withCompanions_nil (a : Arena) (id : Nat) : a.withCompanions id [] = a := by
  apply amend_id
  simp

/-- Companions that are added in two steps may be added in one. -/
theorem withCompanions_withCompanions (a : Arena) (id : Nat) (cs ds : List Command) :
    (a.withCompanions id cs).withCompanions id ds = a.withCompanions id (cs ++ ds) := by
  unfold withCompanions
  rw [amend_amend]
  congr 1
  funext n
  simp [Function.comp]

/-- A change to one node leaves every other as it is. -/
theorem getElem?_amend (a : Arena) (id : Nat) (f : Node → Node) (i : Nat) :
    (a.amend id f).nodes[i]? = if id = i then a.nodes[i]?.map f else a.nodes[i]? :=
  Array.getElem?_modify

/-- After a new child there is that child, its parent lists it last, and every other node is as it
was. -/
theorem getElem?_extend (a : Arena) (parent : Nat) (c : Command) (i : Nat) :
    (a.extend parent c).nodes[i]? =
      if i = a.size then some { Node.detached a.size c with parent? := some parent }
      else a.nodes[i]?.map fun n => if parent = i then n.addChildren [a.size] else n := by
  simp only [extend]
  rw [Array.getElem?_push, Array.size_modify, Array.getElem?_modify]
  by_cases hi : parent = i <;> simp [hi, size, Node.addChildren]

/-- The node made last. -/
theorem getElem?_extend_size (a : Arena) (parent : Nat) (c : Command) :
    (a.extend parent c).nodes[a.size]? =
      some { Node.detached a.size c with parent? := some parent } := by
  rw [getElem?_extend, if_pos rfl]

/-- The nodes made before get no more than a child. -/
theorem getElem?_extend_of_lt {a : Arena} {i : Nat} (h : i < a.size) (parent : Nat) (c : Command) :
    (a.extend parent c).nodes[i]? =
      a.nodes[i]?.map fun n => if parent = i then n.addChildren [a.size] else n := by
  rw [getElem?_extend, if_neg (Nat.ne_of_lt h)]

/-- The command of the node made last. -/
@[simp] theorem commandAt_extend (a : Arena) (parent : Nat) (c : Command) :
    (a.extend parent c).commandAt a.size = c := by
  rw [commandAt, getElem?_extend_size]
  rfl

/-- The arena with a block of new nodes, of which some become the last children of a node. -/
def attach (a : Arena) (parent : Nat) (ids : List Nat) (block : List Node) : Arena :=
  ⟨a.nodes.modify parent (·.addChildren ids) ++ block.toArray⟩

/-- A block that is attached makes the arena larger by its length. -/
@[simp] theorem size_attach (a : Arena) (parent : Nat) (ids : List Nat) (block : List Node) :
    (a.attach parent ids block).size = a.size + block.length := by
  simp [attach, size]

/-- The nodes that were there get no more than children. -/
theorem getElem?_attach_of_lt {a : Arena} {i : Nat} (h : i < a.size) (parent : Nat)
    (ids : List Nat) (block : List Node) :
    (a.attach parent ids block).nodes[i]? =
      a.nodes[i]?.map fun n => if parent = i then n.addChildren ids else n := by
  have hlt : i < (a.nodes.modify parent (·.addChildren ids)).size := by
    rw [Array.size_modify]
    exact h
  simp only [attach]
  rw [Array.getElem?_append_left hlt, Array.getElem?_modify]
  by_cases hi : parent = i <;> simp [hi]

/-- The nodes of the block come after those that were there. -/
theorem getElem?_attach_add (a : Arena) (parent : Nat) (ids : List Nat) (block : List Node)
    (j : Nat) : (a.attach parent ids block).nodes[a.size + j]? = block[j]? := by
  have hsize : (a.nodes.modify parent (·.addChildren ids)).size = a.size := by simp [size]
  simp only [attach]
  rw [Array.getElem?_append_right (by omega), hsize, Nat.add_sub_cancel_left,
    List.getElem?_toArray]

/-- A new child is a block of one node that is attached. -/
theorem extend_eq_attach (a : Arena) (parent : Nat) (c : Command) :
    a.extend parent c =
      a.attach parent [a.size] [{ Node.detached a.size c with parent? := some parent }] := by
  simp [extend, attach, Node.addChildren]

/-- A change of a node in the first of two parts. -/
theorem modify_append_of_lt {xs ys : Array Node} {i : Nat} (h : i < xs.size) (f : Node → Node) :
    (xs ++ ys).modify i f = xs.modify i f ++ ys := by
  apply Array.ext_getElem?
  intro j
  rw [Array.getElem?_modify, Array.getElem?_append, Array.getElem?_append, Array.size_modify,
    Array.getElem?_modify]
  by_cases hij : i = j
  · subst hij
    simp [h]
  · simp [hij]

/-- A change of the node where the second of two parts begins. -/
theorem modify_size_append {xs : Array Node} (n : Node) (ns : List Node) (f : Node → Node) :
    (xs ++ (n :: ns).toArray).modify xs.size f = xs ++ (f n :: ns).toArray := by
  apply Array.ext_getElem?
  intro j
  rw [Array.getElem?_modify, Array.getElem?_append, Array.getElem?_append]
  by_cases hj : j < xs.size
  · simp [hj, Nat.ne_of_gt hj]
  · by_cases heq : xs.size = j
    · subst heq
      simp
    · obtain ⟨k, rfl⟩ : ∃ k, j = xs.size + (k + 1) := ⟨j - xs.size - 1, by omega⟩
      simp

/-- To attach nothing is to leave the arena as it is. -/
@[simp] theorem attach_nil (a : Arena) (parent : Nat) : a.attach parent [] [] = a := by
  have h := amend_id a parent (f := (·.addChildren [])) fun n _ => by simp [Node.addChildren]
  simpa [attach, amend] using h

/-- Two blocks under one node are one block. -/
theorem attach_attach {a : Arena} {parent : Nat} (h : parent < a.size) (ids ids' : List Nat)
    (block block' : List Node) :
    (a.attach parent ids block).attach parent ids' block' =
      a.attach parent (ids ++ ids') (block ++ block') := by
  have hmodify : parent < (a.nodes.modify parent (·.addChildren ids)).size := by
    rw [Array.size_modify]
    exact h
  have htwice := amend_amend a parent (·.addChildren ids) (·.addChildren ids')
  simp only [amend, Arena.mk.injEq, Function.comp_def, Node.addChildren_addChildren] at htwice
  simp only [attach, modify_append_of_lt hmodify, htwice, Array.append_assoc, List.append_toArray]

/-- A block under the first node of a block is part of that block. -/
theorem attach_attach_size {a : Arena} {parent : Nat} (ids ids' : List Nat) (n : Node)
    (block block' : List Node) :
    (a.attach parent ids (n :: block)).attach a.size ids' block' =
      a.attach parent ids (n.addChildren ids' :: (block ++ block')) := by
  have hsize : a.size = (a.nodes.modify parent (·.addChildren ids)).size := by simp [size]
  simp only [attach]
  rw [hsize, modify_size_append, Array.append_assoc]
  simp

/-- A change of the first node of a block is part of that block. -/
theorem amend_attach_size {a : Arena} {parent : Nat} (ids : List Nat) (n : Node)
    (block : List Node) (f : Node → Node) :
    (a.attach parent ids (n :: block)).amend a.size f = a.attach parent ids (f n :: block) := by
  have hsize : a.size = (a.nodes.modify parent (·.addChildren ids)).size := by simp [size]
  simp only [attach, amend]
  rw [hsize, modify_size_append]

end Arena

end PageOutline
