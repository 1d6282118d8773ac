import Mathlib.Data.List.Perm.Subperm
import PageOutline.Proofs.Links
import PageOutline.Proofs.Forest.Layout

/-!
# Ways through a tree

A tree is read in four ways: by a walk with depths, by listing what is below a node, by the nested
outline, and by going up from a node to its parents. They are loops and recursions of different
forms. All four are compared with one thing, the chain of parents of each node.
-/

namespace PageOutline

mutual

/-- The codes of an outline, each before those nested in it, with the depths of their nesting. -/
def Shape.preorder (depth : Nat) : Shape → List (Code × Nat)
  | .node code children => (code, depth) :: Shape.preorders (depth + 1) children

/-- The codes of several outlines, one outline after the other. -/
def Shape.preorders (depth : Nat) : List Shape → List (Code × Nat)
  | [] => []
  | s :: shapes => Shape.preorder depth s ++ Shape.preorders depth shapes

end

namespace Arena

/-- The chain of parents of a node, from the node itself up to one without a parent. -/
inductive Lineage (a : Arena) : Nat → List Nat → Prop
  | top {id : Nat} (hparent : a.parentOf? id = none) : Lineage a id [id]
  | child {id p : Nat} {chain : List Nat} (hparent : a.parentOf? id = some p)
      (hchain : Lineage a p chain) : Lineage a id (id :: chain)

/-- What the loop of a walk lists from a stack until the stack is empty. A derivation is a run of
the loop that ends; nothing bounds the number of its rounds. -/
inductive Walks (a : Arena) : List (Nat × Nat) → List (Nat × Nat) → Prop
  | done : Walks a [] []
  | visit {id depth : Nat} {stack rest : List (Nat × Nat)}
      (hrest : Walks a ((a.childrenOf id).map (·, depth + 1) ++ stack) rest) :
      Walks a ((id, depth) :: stack) ((id, depth) :: rest)

/-- A node lies some steps below another: that is what its chain of parents has there. -/
def Beneath (a : Arena) (id steps x : Nat) : Prop :=
  ∃ chain, a.Lineage x chain ∧ chain[steps]? = some id

/-- No node lies below both of two nodes. -/
def Apart (a : Arena) (i j : Nat) : Prop :=
  ∀ x steps steps', a.Beneath i steps x → ¬a.Beneath j steps' x

variable {a : Arena} {id x : Nat} {chain : List Nat}

/-! ## Chains of parents -/

/-- A chain of parents begins with the node itself. -/
theorem Lineage.getElem?_zero (h : a.Lineage id chain) : chain[0]? = some id := by
  cases h <;> rfl

/-- After each node of a chain comes its parent. -/
theorem Lineage.getElem?_succ (h : a.Lineage id chain) {k y : Nat} (hk : chain[k]? = some y) :
    chain[k + 1]? = a.parentOf? y := by
  induction h generalizing k with
  | top hparent =>
    cases k with
    | zero =>
      cases hk
      exact hparent.symm
    | succ k => simp at hk
  | child hparent hchain ih =>
    cases k with
    | zero =>
      cases hk
      rw [List.getElem?_cons_succ, hchain.getElem?_zero, hparent]
    | succ k => exact ih hk

/-- A node has one chain of parents. -/
theorem Lineage.unique {chain' : List Nat} (h : a.Lineage id chain) (h' : a.Lineage id chain') :
    chain = chain' := by
  induction h generalizing chain' with
  | top hparent =>
    cases h' with
    | top => rfl
    | child hparent' => cases hparent.symm.trans hparent'
  | child hparent hchain ih =>
    cases h' with
    | top hparent' => cases hparent.symm.trans hparent'
    | child hparent' hchain' =>
      cases hparent.symm.trans hparent'
      rw [ih hchain']

/-- The nodes of a chain were made one before the other. -/
theorem Lineage.pairwise (hlinked : a.Linked) (h : a.Lineage id chain) :
    (∀ y ∈ chain, y ≤ id) ∧ chain.Pairwise (· > ·) := by
  induction h with
  | top => simp
  | @child id p chain hparent hchain ih =>
    have hlt : p < id := hlinked.older id p hparent
    have hbelow : ∀ y ∈ chain, y < id := fun y hy => by
      have hle := ih.1 y hy
      omega
    refine ⟨fun y hy => ?_, List.pairwise_cons.2 ⟨hbelow, ih.2⟩⟩
    rcases List.mem_cons.1 hy with rfl | hy
    · exact Nat.le_refl y
    · exact Nat.le_of_lt (hbelow y hy)

/-- In a forest no node is twice in a chain of parents. -/
theorem Lineage.nodup (hlinked : a.Linked) (h : a.Lineage id chain) : chain.Nodup :=
  (h.pairwise hlinked).2.imp fun hgt => Nat.ne_of_gt hgt

/-- In a forest a chain of parents is no longer than there are older nodes, and the node itself. -/
theorem Lineage.length_le (hlinked : a.Linked) (h : a.Lineage id chain) :
    chain.length ≤ id + 1 := by
  induction h with
  | top => simp
  | @child id p chain hparent hchain ih =>
    have hlt := hlinked.older id p hparent
    rw [List.length_cons]
    omega

/-- In a forest every chain of parents ends. -/
theorem Linked.exists_lineage (hlinked : a.Linked) (id : Nat) : ∃ chain, a.Lineage id chain := by
  induction id using Nat.strongRecOn with
  | ind id ih =>
    cases hparent : a.parentOf? id with
    | none => exact ⟨[id], .top hparent⟩
    | some p =>
      obtain ⟨chain, hchain⟩ := ih p (hlinked.older id p hparent)
      exact ⟨id :: chain, .child hparent hchain⟩

/-- A chain that meets a node starts from one. -/
theorem Lineage.lt_size (hlinked : a.Linked) (h : a.Lineage id chain) {y : Nat} (hy : y ∈ chain)
    (hsize : y < a.size) : id < a.size := by
  cases h with
  | top =>
    rw [List.mem_singleton] at hy
    omega
  | child hparent => exact (hlinked.lt_size hparent).1

/-- Going up counts the chain without its first node. -/
theorem Lineage.climb (h : a.Lineage id chain) {fuel : Nat} (hfuel : chain.length ≤ fuel + 1) :
    a.climb fuel id + 1 = chain.length := by
  induction h generalizing fuel with
  | @top id hparent =>
    cases fuel with
    | zero => rfl
    | succ n =>
      rw [Arena.climb, show a.nodes[id]?.bind (·.parent?) = none from hparent]
      rfl
  | @child id p chain hparent hchain ih =>
    have hpos : 0 < chain.length := by cases hchain <;> simp
    rw [List.length_cons] at hfuel ⊢
    obtain ⟨n, rfl⟩ : ∃ n, fuel = n + 1 := ⟨fuel - 1, by omega⟩
    rw [Arena.climb, show a.nodes[id]?.bind (·.parent?) = some p from hparent]
    exact congrArg (· + 1) (ih (by omega))

/-! ## Nodes below a node -/

/-- Only the node itself is no step below it. -/
theorem beneath_zero_iff (hlinked : a.Linked) : a.Beneath id 0 x ↔ x = id := by
  constructor
  · rintro ⟨chain, hchain, hzero⟩
    rw [hchain.getElem?_zero, Option.some.injEq] at hzero
    exact hzero
  · rintro rfl
    obtain ⟨chain, hchain⟩ := hlinked.exists_lineage x
    exact ⟨chain, hchain, hchain.getElem?_zero⟩

/-- What lies further below a node lies below one of its children. -/
theorem beneath_succ_iff (hlinked : a.Linked) {k : Nat} :
    a.Beneath id (k + 1) x ↔ ∃ c ∈ a.childrenOf id, a.Beneath c k x := by
  constructor
  · rintro ⟨chain, hchain, hid⟩
    have hlt : k < chain.length := by
      have hlt := (List.getElem?_eq_some_iff.1 hid).1
      omega
    have hk : chain[k]? = some chain[k] := List.getElem?_eq_getElem hlt
    have hparent : a.parentOf? chain[k] = some id := (hchain.getElem?_succ hk).symm.trans hid
    exact ⟨chain[k], (hlinked.mem_iff id _).2 hparent, chain, hchain, hk⟩
  · rintro ⟨c, hc, chain, hchain, hk⟩
    have hparent : a.parentOf? c = some id := (hlinked.mem_iff id c).1 hc
    exact ⟨chain, hchain, (hchain.getElem?_succ hk).trans hparent⟩

/-- A node lies one number of steps below another. -/
theorem Beneath.unique (hlinked : a.Linked) {k k' : Nat} (h : a.Beneath id k x)
    (h' : a.Beneath id k' x) : k = k' := by
  obtain ⟨chain, hchain, hk⟩ := h
  obtain ⟨chain', hchain', hk'⟩ := h'
  obtain rfl := hchain.unique hchain'
  have hlt := (List.getElem?_eq_some_iff.1 hk).1
  exact (List.getElem?_inj hlt (hchain.nodup hlinked)).1 (hk.trans hk'.symm)

/-- No node lies below two children of one node. -/
theorem Linked.apart_childrenOf (hlinked : a.Linked) (id : Nat) :
    (a.childrenOf id).Pairwise a.Apart := by
  refine (hlinked.ordered id).imp_of_mem fun {c c'} hc hc' hlt x k k' h h' => ?_
  have hbelow : a.Beneath id (k + 1) x := (beneath_succ_iff hlinked).2 ⟨c, hc, h⟩
  have hbelow' : a.Beneath id (k' + 1) x := (beneath_succ_iff hlinked).2 ⟨c', hc', h'⟩
  obtain rfl : k = k' := Nat.succ.inj (hbelow.unique hlinked hbelow')
  obtain ⟨chain, hchain, hk⟩ := h
  obtain ⟨chain', hchain', hk'⟩ := h'
  obtain rfl := hchain.unique hchain'
  have heq : c = c' := Option.some.inj (hk.symm.trans hk')
  omega

/-! ## The loop of a walk -/

/-- A walk from two stacks in one lists what it lists from the first and then what it lists from the
second. -/
theorem Walks.append {stack stack' l l' : List (Nat × Nat)} (h : a.Walks stack l)
    (h' : a.Walks stack' l') : a.Walks (stack ++ stack') (l ++ l') := by
  induction h with
  | done => exact h'
  | visit hrest ih =>
    rw [List.append_assoc] at ih
    exact .visit ih

/-- With room for as many rounds as it lists nodes, the loop lists them all. -/
theorem Walks.walkFrom {stack l : List (Nat × Nat)} (h : a.Walks stack l) {fuel : Nat}
    (hfuel : l.length ≤ fuel) : a.walkFrom fuel stack = l := by
  induction h generalizing fuel with
  | done => cases fuel <;> rfl
  | visit hrest ih =>
    rw [List.length_cons] at hfuel
    obtain ⟨n, rfl⟩ : ∃ n, fuel = n + 1 := ⟨fuel - 1, by omega⟩
    rw [Arena.walkFrom, ih (by omega)]

/-- A stack of nodes at one depth has these nodes on it. -/
theorem map_fst_map_pair (ids : List Nat) (depth : Nat) :
    (ids.map (·, depth)).map Prod.fst = ids := by
  simp [Function.comp_def]

/-- Listing nodes is walking without looking at depths. -/
theorem visit_map_fst (a : Arena) (fuel : Nat) (stack : List (Nat × Nat)) :
    a.visit fuel (stack.map Prod.fst) = (a.walkFrom fuel stack).map Prod.fst := by
  induction fuel generalizing stack with
  | zero => rfl
  | succ n ih =>
    cases stack with
    | nil => rfl
    | cons entry stack =>
      obtain ⟨id, depth⟩ := entry
      rw [List.map_cons, visit, Arena.walkFrom, List.map_cons, ← ih, List.map_append,
        map_fst_map_pair]

/-- A walk lists what lies below the nodes on the stack, and how far below. -/
theorem Walks.mem_iff (hlinked : a.Linked) {stack l : List (Nat × Nat)} (h : a.Walks stack l)
    {d : Nat} :
    (x, d) ∈ l ↔ ∃ id depth k, (id, depth) ∈ stack ∧ a.Beneath id k x ∧ d = depth + k := by
  induction h with
  | done => simp
  | @visit id depth stack rest hrest ih =>
    rw [List.mem_cons, ih]
    constructor
    · rintro (heq | ⟨c, e, k, hc, hbelow, rfl⟩)
      · obtain ⟨rfl, rfl⟩ := Prod.mk.inj heq
        exact ⟨x, d, 0, List.mem_cons_self, (beneath_zero_iff hlinked).2 rfl, rfl⟩
      · rcases List.mem_append.1 hc with hc | hc
        · obtain ⟨c, hmem, heq⟩ := List.mem_map.1 hc
          obtain ⟨rfl, rfl⟩ := Prod.mk.inj heq
          exact ⟨id, depth, k + 1, List.mem_cons_self,
            (beneath_succ_iff hlinked).2 ⟨c, hmem, hbelow⟩, by omega⟩
        · exact ⟨c, e, k, List.mem_cons_of_mem _ hc, hbelow, rfl⟩
    · rintro ⟨c, e, k, hc, hbelow, rfl⟩
      rcases List.mem_cons.1 hc with heq | hc
      · obtain ⟨rfl, rfl⟩ := Prod.mk.inj heq
        cases k with
        | zero =>
          obtain rfl := (beneath_zero_iff hlinked).1 hbelow
          exact Or.inl rfl
        | succ k =>
          obtain ⟨child, hmem, hchild⟩ := (beneath_succ_iff hlinked).1 hbelow
          refine Or.inr ⟨child, e + 1, k, List.mem_append_left _ ?_, hchild, by omega⟩
          exact List.mem_map.2 ⟨child, hmem, rfl⟩
      · exact Or.inr ⟨c, e, k, List.mem_append_right _ hc, hbelow, rfl⟩

/-- A walk from nodes that have nothing below them in common lists no node twice. -/
theorem Walks.nodup (hlinked : a.Linked) {stack l : List (Nat × Nat)} (h : a.Walks stack l)
    (hapart : stack.Pairwise fun i j => a.Apart i.1 j.1) : (l.map Prod.fst).Nodup := by
  induction h with
  | done => simp
  | @visit id depth stack rest hrest ih =>
    obtain ⟨hid, hstack⟩ := List.pairwise_cons.1 hapart
    have hself : a.Beneath id 0 id := (beneath_zero_iff hlinked).2 rfl
    rw [List.map_cons, List.nodup_cons]
    constructor
    · intro hmem
      obtain ⟨⟨_, d⟩, hrestmem, rfl⟩ := List.mem_map.1 hmem
      obtain ⟨c, e, k, hc, hbelow, -⟩ := (hrest.mem_iff hlinked).1 hrestmem
      rcases List.mem_append.1 hc with hc | hc
      · obtain ⟨c, hchild, heq⟩ := List.mem_map.1 hc
        obtain ⟨rfl, rfl⟩ := Prod.mk.inj heq
        have hcycle := (beneath_succ_iff hlinked).2 ⟨c, hchild, hbelow⟩
        cases hself.unique hlinked hcycle
      · exact hid _ hc _ 0 k hself hbelow
    · refine ih (List.pairwise_append.2 ⟨?_, hstack, ?_⟩)
      · exact List.pairwise_map.2 (hlinked.apart_childrenOf id)
      · intro entry hentry other hother x k k' hbelow
        obtain ⟨c, hchild, rfl⟩ := List.mem_map.1 hentry
        exact hid other hother x (k + 1) k' ((beneath_succ_iff hlinked).2 ⟨c, hchild, hbelow⟩)

/-- The loop ends on every stack of nodes at one depth, since children are made after their parents.
Where the outline of these nodes has room for its depth, it has the codes that the loop lists. -/
theorem Linked.exists_walks (hlinked : a.Linked) (n : Nat) :
    ∀ (ids : List Nat) (depth : Nat), (∀ id ∈ ids, id < a.size ∧ a.size ≤ id + n) →
      ∃ l, a.Walks (ids.map (·, depth)) l ∧ ∀ fuel, n ≤ fuel →
        Shape.preorders depth (a.outline fuel ids) =
          l.map fun e => ((a.commandAt e.1).code, e.2) := by
  induction n with
  | zero =>
    intro ids depth hids
    cases ids with
    | nil => exact ⟨[], .done, fun _ _ => rfl⟩
    | cons id ids =>
      have hid := hids id (by simp)
      omega
  | succ n ihn =>
    intro ids depth hids
    induction ids with
    | nil => exact ⟨[], .done, fun _ _ => rfl⟩
    | cons id ids ih =>
      obtain ⟨hid, hroom⟩ := hids id (by simp)
      obtain ⟨node, hnode⟩ : ∃ node, a.nodes[id]? = some node :=
        ⟨_, Array.getElem?_eq_getElem hid⟩
      have hchildren : ∀ c ∈ a.childrenOf id, c < a.size ∧ a.size ≤ c + n := by
        intro c hc
        have hparent := (hlinked.mem_iff id c).1 hc
        have holder := hlinked.older c id hparent
        exact ⟨(hlinked.lt_size hparent).1, by omega⟩
      obtain ⟨below, hbelow, hshape⟩ := ihn (a.childrenOf id) (depth + 1) hchildren
      obtain ⟨rest, hrest, hshapes⟩ := ih fun i hi => hids i (by simp [hi])
      refine ⟨(id, depth) :: (below ++ rest), .visit (hbelow.append hrest), fun fuel hfuel => ?_⟩
      obtain ⟨m, rfl⟩ : ∃ m, fuel = m + 1 := ⟨fuel - 1, by omega⟩
      rw [outline_cons hnode, ← childrenOf_of_some hnode, Shape.preorders, Shape.preorder,
        hshape m (by omega), hshapes (m + 1) hfuel, List.map_cons, List.map_append,
        commandAt_of_some hnode]
      rfl

/-! ## What there is below one node -/

/-- A node that there is, with its number and its children. -/
theorem Linked.get_natCast (hlinked : a.Linked) (hid : id < a.size) :
    ∃ n, a.get id = .ok n ∧ n.id = id ∧ n.children.toList = a.childrenOf id := by
  rcases a.get_cases id with ⟨-, n, hget, hn⟩ | ⟨hnot, -⟩
  · have hn : a.nodes[id]? = some n := hn
    exact ⟨n, hget, hlinked.numbered id n hn, by simp [childrenOf, hn]⟩
  · exact absurd (contains_eq_true_iff.2 ⟨by omega, by omega⟩) hnot

/-- The number of ancestors of a node is the length of its chain of parents without itself. -/
theorem Linked.depth_eq (hlinked : a.Linked) (hid : id < a.size) (hchain : a.Lineage id chain) :
    a.depth id = .ok (chain.length - 1) := by
  obtain ⟨n, hget, rfl, -⟩ := hlinked.get_natCast hid
  have hlength := hchain.length_le hlinked
  have hclimb : a.climb a.size n.id + 1 = chain.length := hchain.climb (by omega)
  have hdepth : a.climb a.size n.id = chain.length - 1 := by omega
  rw [depth, hget, ← hdepth]
  rfl

section Below

variable {l : List (Nat × Nat)}

/-- The loop lists what lies below a node with the number of nodes between. -/
theorem Walks.mem_below_iff (hlinked : a.Linked) (h : a.Walks ((a.childrenOf id).map (·, 0)) l)
    {d : Nat} : (x, d) ∈ l ↔ a.Beneath id (d + 1) x := by
  rw [h.mem_iff hlinked, beneath_succ_iff hlinked]
  constructor
  · rintro ⟨c, e, k, hc, hbelow, rfl⟩
    obtain ⟨c, hchild, heq⟩ := List.mem_map.1 hc
    obtain ⟨rfl, rfl⟩ := Prod.mk.inj heq
    exact ⟨c, hchild, by rwa [Nat.zero_add]⟩
  · rintro ⟨c, hchild, hbelow⟩
    exact ⟨c, 0, d, List.mem_map.2 ⟨c, hchild, rfl⟩, hbelow, (Nat.zero_add d).symm⟩

/-- Below a node the loop lists every node once and not the node itself. -/
theorem Walks.nodup_below (hlinked : a.Linked) (h : a.Walks ((a.childrenOf id).map (·, 0)) l) :
    (id :: l.map Prod.fst).Nodup := by
  refine List.nodup_cons.2 ⟨fun hself => ?_, h.nodup hlinked ?_⟩
  · obtain ⟨⟨_, d⟩, hentry, rfl⟩ := List.mem_map.1 hself
    have hcycle := (h.mem_below_iff hlinked).1 hentry
    cases ((beneath_zero_iff hlinked).2 rfl).unique hlinked hcycle
  · exact List.pairwise_map.2 (hlinked.apart_childrenOf id)

/-- A walk from the children of a node lists those that have the node further up in their chain. -/
theorem Walks.mem_map_fst_iff (hlinked : a.Linked)
    (h : a.Walks ((a.childrenOf id).map (·, 0)) l) (hchain : a.Lineage x chain) :
    x ∈ l.map Prod.fst ↔ id ∈ chain.tail := by
  have hsplit : ∀ d, a.Beneath id (d + 1) x ↔ chain.tail[d]? = some id := by
    intro d
    rw [List.getElem?_tail]
    constructor
    · rintro ⟨chain', hchain', hd⟩
      rwa [hchain.unique hchain']
    · exact fun hd => ⟨chain, hchain, hd⟩
  rw [List.mem_map, List.mem_iff_getElem?]
  constructor
  · rintro ⟨⟨x, d⟩, hentry, rfl⟩
    exact ⟨d, (hsplit d).1 ((h.mem_below_iff hlinked).1 hentry)⟩
  · rintro ⟨d, hd⟩
    exact ⟨(x, d), (h.mem_below_iff hlinked).2 ((hsplit d).2 hd), rfl⟩

/-- There are fewer nodes below a node than the arena has, so no round of the loop is missing. -/
theorem Walks.length_below_lt (hlinked : a.Linked) (hid : id < a.size)
    (h : a.Walks ((a.childrenOf id).map (·, 0)) l) : l.length < a.size := by
  have hsub : (id :: l.map Prod.fst) ⊆ List.range a.size := by
    intro y hy
    rw [List.mem_range]
    rcases List.mem_cons.1 hy with rfl | hy
    · exact hid
    · obtain ⟨chain, hchain⟩ := hlinked.exists_lineage y
      have hmem := (h.mem_map_fst_iff hlinked hchain).1 hy
      exact hchain.lt_size hlinked (List.mem_of_mem_tail hmem) hid
  have hle := ((h.nodup_below hlinked).subperm hsub).length_le
  rwa [List.length_cons, List.length_map, List.length_range] at hle

/-- The nodes listed from a node are that node and what the loop of a walk lists below it. -/
theorem Walks.visit_eq (hlinked : a.Linked) (hid : id < a.size)
    (h : a.Walks ((a.childrenOf id).map (·, 0)) l) {fuel : Nat} (hfuel : a.size ≤ fuel) :
    a.visit fuel [id] = id :: l.map Prod.fst := by
  have hlength := h.length_below_lt hlinked hid
  obtain ⟨m, rfl⟩ : ∃ m, fuel = m + 1 := ⟨fuel - 1, by omega⟩
  have hvisit := a.visit_map_fst m ((a.childrenOf id).map (·, 0))
  rw [map_fst_map_pair, h.walkFrom (by omega)] at hvisit
  rw [Arena.visit, List.append_nil, hvisit]

/-- The descendants of a node are that node and what the loop of a walk lists below it. -/
theorem Walks.descendants_eq (hlinked : a.Linked) (hid : id < a.size)
    (h : a.Walks ((a.childrenOf id).map (·, 0)) l) :
    a.descendants id = .ok (id :: l.map Prod.fst) := by
  obtain ⟨n, hget, rfl, -⟩ := hlinked.get_natCast hid
  rw [descendants, hget, ← h.visit_eq hlinked hid (Nat.le_refl _)]
  rfl

/-- The loop ends below every node, and the outline below the node has the codes that it lists. -/
theorem Linked.exists_walks_below (hlinked : a.Linked) (hid : id < a.size) :
    ∃ l, a.Walks ((a.childrenOf id).map (·, 0)) l ∧
      Shape.preorders 0 (a.shapes a.size id) =
        l.map fun e => ((a.commandAt e.1).code, e.2) := by
  obtain ⟨m, hm⟩ : ∃ m, a.size = m + 1 := ⟨a.size - 1, by omega⟩
  have hchildren : ∀ c ∈ a.childrenOf id, c < a.size ∧ a.size ≤ c + m := by
    intro c hc
    have hparent := (hlinked.mem_iff id c).1 hc
    have holder := hlinked.older c id hparent
    have hlt := (hlinked.lt_size hparent).1
    omega
  obtain ⟨l, hwalks, hshape⟩ := hlinked.exists_walks m (a.childrenOf id) 0 hchildren
  refine ⟨l, hwalks, ?_⟩
  rw [hm, ← hshape m (Nat.le_refl m)]
  rfl

/-- A descent from nodes that there are hands out what is listed from them, and does not fail. -/
theorem Linked.descend_map (hlinked : a.Linked) (n : Nat) (ids : List Nat)
    (hids : ∀ i ∈ ids, i < a.size) :
    a.descend n (ids.map Int.ofNat) = ((a.visit n ids).map Int.ofNat, .ok ()) := by
  induction n generalizing ids with
  | zero => rfl
  | succ n ih =>
    cases ids with
    | nil => rfl
    | cons id ids =>
      obtain ⟨node, hget, -, hchildren⟩ := hlinked.get_natCast (hids id (by simp))
      have hbelow : ∀ i ∈ a.childrenOf id ++ ids, i < a.size := by
        intro i hi
        obtain hi | hi := List.mem_append.1 hi
        · exact (hlinked.lt_size ((hlinked.mem_iff id i).1 hi)).1
        · exact hids i (List.mem_cons_of_mem _ hi)
      have hdescend := ih _ hbelow
      rw [List.map_append] at hdescend
      rw [List.map_cons, Int.ofNat_eq_natCast, descend, hget]
      simp only [hchildren, hdescend, visit, List.map_cons, Int.ofNat_eq_natCast]

/-- A descent hands out the descendants of a node one by one and ends well. From an id of no node it
hands out that id, and then it fails as the list of descendants does. -/
theorem Linked.descent_eq (hlinked : a.Linked) (id : Int) :
    a.descent id =
      match a.descendants id with
      | .ok ids => (ids.map Int.ofNat, .ok ())
      | .error e => ([id], .error e) := by
  obtain ⟨hcontains, -⟩ | ⟨-, hget⟩ := a.get_cases id
  · obtain ⟨i, rfl, hi⟩ := exists_eq_of_contains hcontains
    obtain ⟨below, hbelow, -⟩ := hlinked.exists_walks_below hi
    have hdescend := hlinked.descend_map (a.size + 1) [i] (by simpa using hi)
    rw [hbelow.visit_eq hlinked hi (Nat.le_succ _)] at hdescend
    rw [hbelow.descendants_eq hlinked hi]
    exact hdescend
  · rw [descent_of_error hget, (reads_of_error hget).2.2.2.2.1]

end Below

/-! ## Trees -/

/-- The root of a tree never gets a parent, whatever is done to the arena later. -/
theorem parentOf?_plant (a : Arena) (ops : List Operation) :
    ((Tree.plant a).arena.after ops).parentOf? (Tree.plant a).root = none ∧
      (Tree.plant a).root < ((Tree.plant a).arena.after ops).size := by
  have hroot : (Tree.plant a).arena.nodes[(Tree.plant a).root]? =
      some (.detached (Tree.plant a).root .sentinel) := by
    simp [Tree.plant, newNode, size]
  obtain ⟨n, hn, -, hparent, -⟩ := Keeps.after (Tree.plant a).arena ops _ _ hroot
  exact ⟨(parentOf?_of_some hn).trans hparent, (Array.getElem?_eq_some_iff.1 hn).1⟩

/-- In an arena that any operations have made, and for a tree that was planted in it at any time,
the ways of reading agree. The loop of a walk ends; it lists every node that has the root as a
proper ancestor once and no other; these are the descendants of the root, the root left out. The
depths of a walk are one less than those counted by going up, and the outline read from top to
bottom has the codes and depths of the walk. For any two nodes, the second is among the descendants
of the first exactly if the first is on the chain of parents of the second, and the depth of the
second is the length of that chain without it. -/
theorem traversals_agree (before after : List Operation) :
    let a := history (before ++ .plant :: after)
    let t : Tree := ⟨a, (Tree.plant (history before)).root⟩
    a.Walks (t.topLevel.map (·, 0)) t.walk ∧
      (t.walk.map Prod.fst).Nodup ∧
      (∀ x, x ∈ t.walk.map Prod.fst ↔ ∃ chain, a.Lineage x chain ∧ t.root ∈ chain.tail) ∧
      a.descendants t.root = .ok (t.root :: t.walk.map Prod.fst) ∧
      (∀ x d, (x, d) ∈ t.walk → a.depth x = .ok (d + 1)) ∧
      Shape.preorders 0 t.shape = t.walk.map (fun e => ((a.commandAt e.1).code, e.2)) ∧
      ∀ x y, x < a.size → y < a.size → ∃ below chain,
        a.Walks ((a.childrenOf x).map (·, 0)) below ∧
        a.descendants x = .ok (x :: below.map Prod.fst) ∧
        a.Lineage y chain ∧ (y ∈ x :: below.map Prod.fst ↔ x ∈ chain) ∧
        a.depth y = .ok (chain.length - 1) := by
  intro a t
  have hlinked : a.Linked := linked_empty.after _
  have hsplit : a = (Tree.plant (history before)).arena.after after := by
    simp only [a, history, Arena.after, List.foldl_append, List.foldl_cons]
    rfl
  obtain ⟨htop, hroot⟩ := parentOf?_plant (history before) after
  rw [← hsplit] at htop hroot
  obtain ⟨l, hwalks, hshape⟩ := hlinked.exists_walks_below hroot
  have hlength := hwalks.length_below_lt hlinked hroot
  have hwalk : t.walk = l := hwalks.walkFrom (Nat.le_of_lt hlength)
  rw [hwalk]
  refine ⟨hwalks, (List.nodup_cons.1 (hwalks.nodup_below hlinked)).2, fun x => ?_,
    hwalks.descendants_eq hlinked hroot, fun x d hx => ?_, hshape, fun x y hx hy => ?_⟩
  · constructor
    · intro hx
      obtain ⟨chain, hchain⟩ := hlinked.exists_lineage x
      exact ⟨chain, hchain, (hwalks.mem_map_fst_iff hlinked hchain).1 hx⟩
    · rintro ⟨chain, hchain, hx⟩
      exact (hwalks.mem_map_fst_iff hlinked hchain).2 hx
  · obtain ⟨chain, hchain, hd⟩ := (hwalks.mem_below_iff hlinked).1 hx
    have hend : chain[d + 2]? = none := (hchain.getElem?_succ hd).trans htop
    have hlow := (List.getElem?_eq_some_iff.1 hd).1
    have hhigh := List.getElem?_eq_none_iff.1 hend
    have hxsize := hchain.lt_size hlinked (List.mem_of_getElem? hd) hroot
    rw [hlinked.depth_eq hxsize hchain]
    congr 1
    omega
  · obtain ⟨below, hbelow, -⟩ := hlinked.exists_walks_below hx
    obtain ⟨chain, hchain⟩ := hlinked.exists_lineage y
    refine ⟨below, chain, hbelow, hbelow.descendants_eq hlinked hx, hchain, ?_,
      hlinked.depth_eq hy hchain⟩
    rw [List.mem_cons, hbelow.mem_map_fst_iff hlinked hchain]
    cases hchain <;> simp [eq_comm]

/-- A tree in an arena that has an older node. One of its nodes gets a child after its sibling, so
the walk does not follow the numbers. -/
theorem traversals_agree_sample :
    let command (code : Code) (h : code.InRange) : Command := ⟨code, [], .int 0, h⟩
    let before : List Operation := [.newNode (command 1 (by decide))]
    let after : List Operation :=
      [.append 1 (command 2 (by decide)), .append 1 (command 3 (by decide)),
        .append 2 (command 4 (by decide)), .append 0 (command 5 (by decide)),
        .append 9 (command 6 (by decide)), .setCommand 3 (command 7 (by decide))]
    let a := history (before ++ .plant :: after)
    let t : Tree := ⟨a, (Tree.plant (history before)).root⟩
    t.walk = [(2, 0), (4, 1), (3, 0)] ∧ a.descendants t.root = .ok [1, 2, 4, 3] ∧
      a.depth 4 = .ok 2 ∧ Shape.preorders 0 t.shape = [(2, 0), (4, 1), (7, 0)] ∧
      (2 < a.size ∧ 4 < a.size) ∧
      ∃ (below : List (Nat × Nat)) (chain : List Nat),
        a.descendants 2 = .ok (2 :: below.map Prod.fst) ∧ a.Lineage 4 chain ∧
        (4 ∈ 2 :: below.map Prod.fst ↔ 2 ∈ chain) ∧ a.depth 4 = .ok (chain.length - 1) := by
  intro command before after a t
  obtain ⟨-, -, -, hdescendants, hdepth, hshape, hpairs⟩ := traversals_agree before after
  have hwalk : t.walk = [(2, 0), (4, 1), (3, 0)] := by decide +kernel
  have hcodes : [(2, 0), (4, 1), (3, 0)].map (fun e => ((a.commandAt e.1).code, e.2)) =
      [(2, 0), (4, 1), (7, 0)] := by decide +kernel
  have hsize : a.size = 6 := by decide +kernel
  have htwo : 2 < a.size := by omega
  have hfour : 4 < a.size := by omega
  obtain ⟨below, chain, -, hbelow, hchain, hmem, hfourDepth⟩ := hpairs 2 4 htwo hfour
  refine ⟨hwalk, ?_, ?_, ?_, ⟨htwo, hfour⟩, below, chain, hbelow, hchain, hmem, hfourDepth⟩
  · exact hdescendants.trans (by rw [hwalk]; rfl)
  · exact hdepth 4 1 (by rw [hwalk]; simp)
  · exact hshape.trans (by rw [hwalk, hcodes])

end Arena

end PageOutline
