import PageOutline.Proofs.Growth
import PageOutline.Tree

/-!
# Links between nodes

A node knows its parent, and a parent its children in the order in which they were made. Whatever is
done to an arena, with ids that lead to a node or with others, the two agree, so that its nodes are
a forest at all times. Nothing that is done later takes a link away.
-/

namespace PageOutline

/-- Two nodes that stand at the same place among the others. -/
structure Node.SameLinks (n m : Node) : Prop where
  id : n.id = m.id
  parent? : n.parent? = m.parent?
  children : n.children = m.children

namespace Arena

/-- The parent of a node; nothing for a detached node and for an id without a node. -/
def parentOf? (a : Arena) (id : Nat) : Option Nat := a.nodes[id]?.bind (·.parent?)

/-- What can be done to an arena. The ids may be any integers. -/
inductive Operation where
  | newNode (c : Command)
  | append (parent : Int) (c : Command)
  | setCommand (id : Int) (c : Command)
  | addCompanion (id : Int) (c : Command)
  /-- Plants the root of a tree. -/
  | plant

namespace Operation

/-- The id that an operation looks up. -/
def target? : Operation → Option Int
  | newNode _ => none
  | append parent _ => some parent
  | setCommand id _ => some id
  | addCompanion id _ => some id
  | plant => none

/-- Whether an operation makes a node. -/
def makesNode : Operation → Bool
  | newNode _ => true
  | append _ _ => true
  | setCommand _ _ => false
  | addCompanion _ _ => false
  | plant => true

/-- The id under which an operation makes a node. -/
def parent? : Operation → Option Int
  | append parent _ => some parent
  | _ => none

/-- What an operation gives, which is the id of the node that it makes if it makes one, and the
arena after it. -/
def apply (a : Arena) : Operation → Except NodeNotFound (Option Nat) × Arena
  | newNode c =>
    let (id, a) := a.newNode c
    (.ok (some id), a)
  | append parent c =>
    let (r, a) := a.append parent c
    (r.map some, a)
  | setCommand id c =>
    let (r, a) := a.setCommand id c
    (r.map fun _ => none, a)
  | addCompanion id c =>
    let (r, a) := a.addCompanion id c
    (r.map fun _ => none, a)
  | plant =>
    let t := Tree.plant a
    (.ok (some t.root), t.arena)

end Operation

/-- The arena after some more operations, of which some may have failed. -/
def after (a : Arena) (ops : List Operation) : Arena := ops.foldl (fun a op => (op.apply a).2) a

/-- The arena that some operations have made. -/
def history (ops : List Operation) : Arena := empty.after ops

/-- The nodes of an arena are a forest: each stands at the index that is its id, is made after its
parent, and is listed by its parent and by no other node. -/
structure Linked (a : Arena) : Prop where
  numbered : ∀ (i : Nat) (n : Node), a.nodes[i]? = some n → n.id = i
  older : ∀ c p, a.parentOf? c = some p → p < c
  ordered : ∀ p, (a.childrenOf p).Pairwise (· < ·)
  mem_iff : ∀ p c, c ∈ a.childrenOf p ↔ a.parentOf? c = some p

/-- No link of the first arena is missing or in another place in the second. -/
def Keeps (a b : Arena) : Prop :=
  ∀ (i : Nat) (n : Node), a.nodes[i]? = some n → ∃ m : Node, b.nodes[i]? = some m ∧
    m.id = n.id ∧ m.parent? = n.parent? ∧ n.children.toList <+: m.children.toList

/-- All that an operation can come to, as far as links are concerned. -/
inductive Change (a : Arena) : Arena → Prop
  | refused : Change a a
  | detached (c : Command) : Change a (a.newNode c).2
  | child {parent : Nat} (hparent : parent < a.size) (c : Command) : Change a (a.extend parent c)
  | amended (id : Nat) {f : Node → Node} (hf : ∀ n, (f n).SameLinks n) : Change a (a.amend id f)

variable {a b d : Arena}

/-- The parent of a node that is there is the one in its record. -/
theorem parentOf?_of_some {id : Nat} {n : Node} (h : a.nodes[id]? = some n) :
    a.parentOf? id = n.parent? := by
  simp [parentOf?, h]

/-- What is not there has no parent. -/
theorem parentOf?_of_le {id : Nat} (h : a.size ≤ id) : a.parentOf? id = none := by
  have hnone : a.nodes[id]? = none := Array.getElem?_eq_none h
  simp [parentOf?, hnone]

/-- What is not there has no children. -/
theorem childrenOf_of_le {id : Nat} (h : a.size ≤ id) : a.childrenOf id = [] := by
  have hnone : a.nodes[id]? = none := Array.getElem?_eq_none h
  simp [childrenOf, hnone]

/-! ## What each change does to the links -/

/-- A new node stands behind all others, and these stay what they are. -/
theorem getElem?_newNode (a : Arena) (c : Command) (i : Nat) :
    (a.newNode c).2.nodes[i]? =
      if i = a.size then some (.detached a.size c) else a.nodes[i]? := by
  simp only [newNode, Array.getElem?_push]
  rfl

/-- A node that is made detached changes no parent. -/
theorem parentOf?_newNode (a : Arena) (c : Command) (i : Nat) :
    (a.newNode c).2.parentOf? i = a.parentOf? i := by
  by_cases hi : i = a.size
  · rw [parentOf?_of_le (Nat.le_of_eq hi.symm), parentOf?, getElem?_newNode, if_pos hi]
    rfl
  · rw [parentOf?, getElem?_newNode, if_neg hi]
    rfl

/-- A node that is made detached changes no list of children. -/
theorem childrenOf_newNode (a : Arena) (c : Command) (i : Nat) :
    (a.newNode c).2.childrenOf i = a.childrenOf i := by
  by_cases hi : i = a.size
  · rw [childrenOf_of_le (Nat.le_of_eq hi.symm), childrenOf, getElem?_newNode, if_pos hi]
    rfl
  · rw [childrenOf, getElem?_newNode, if_neg hi]
    rfl

/-- The new node is the only one that gets a parent. -/
theorem parentOf?_extend (a : Arena) (parent : Nat) (c : Command) (i : Nat) :
    (a.extend parent c).parentOf? i = if i = a.size then some parent else a.parentOf? i := by
  rw [parentOf?, getElem?_extend]
  by_cases hi : i = a.size
  · rw [if_pos hi, if_pos hi]
    rfl
  · rw [if_neg hi, if_neg hi, parentOf?]
    cases a.nodes[i]? with
    | none => rfl
    | some n => by_cases hparent : parent = i <;> simp [hparent, Node.addChildren]

/-- The parent is the only node that gets a child, and gets it last. -/
theorem childrenOf_extend_eq {parent : Nat} (h : parent < a.size) (c : Command) (i : Nat) :
    (a.extend parent c).childrenOf i =
      if i = parent then a.childrenOf i ++ [a.size] else a.childrenOf i := by
  by_cases hi : i = a.size
  · have hne : i ≠ parent := by omega
    rw [if_neg hne, childrenOf_of_le (Nat.le_of_eq hi.symm), childrenOf, getElem?_extend, if_pos hi]
    rfl
  · rw [childrenOf, childrenOf, getElem?_extend, if_neg hi]
    by_cases hparent : i = parent
    · subst hparent
      have hn : a.nodes[i]? = some a.nodes[i] := Array.getElem?_eq_getElem h
      simp [hn, Node.addChildren]
    · have hne : parent ≠ i := Ne.symm hparent
      cases a.nodes[i]? <;> simp [hparent, hne]

/-- A change of a node that leaves its links alone changes no parent. -/
theorem parentOf?_amend (a : Arena) (id : Nat) {f : Node → Node} (hf : ∀ n, (f n).SameLinks n)
    (i : Nat) : (a.amend id f).parentOf? i = a.parentOf? i := by
  rw [parentOf?, parentOf?, getElem?_amend]
  by_cases hi : id = i
  · rw [if_pos hi]
    cases a.nodes[i]? with
    | none => rfl
    | some n => exact (hf n).parent?
  · rw [if_neg hi]

/-- A change of a node that leaves its links alone changes no list of children. -/
theorem childrenOf_amend (a : Arena) (id : Nat) {f : Node → Node} (hf : ∀ n, (f n).SameLinks n)
    (i : Nat) : (a.amend id f).childrenOf i = a.childrenOf i := by
  rw [childrenOf, childrenOf, getElem?_amend]
  by_cases hi : id = i
  · rw [if_pos hi]
    cases a.nodes[i]? with
    | none => rfl
    | some n => exact congrArg Array.toList (hf n).children
  · rw [if_neg hi]

/-! ## Links at all times -/

/-- The arena without nodes is a forest. -/
theorem linked_empty : empty.Linked where
  numbered := by simp [empty]
  older := by simp [empty, parentOf?]
  ordered := by simp [empty, childrenOf]
  mem_iff := by simp [empty, parentOf?, childrenOf]

/-- A parent in a forest is one of its nodes. -/
theorem Linked.lt_size (h : a.Linked) {p c : Nat} (hparent : a.parentOf? c = some p) :
    c < a.size ∧ p < a.size := by
  have hc : c < a.size := by
    refine Nat.lt_of_not_le fun hle => ?_
    rw [parentOf?_of_le hle] at hparent
    cases hparent
  have hp := h.older c p hparent
  exact ⟨hc, by omega⟩

/-- A child made last comes after all others. -/
theorem Linked.extend (h : a.Linked) {parent : Nat} (hparent : parent < a.size) (c : Command) :
    (a.extend parent c).Linked := by
  constructor
  case numbered =>
    intro i n hn
    rw [getElem?_extend] at hn
    by_cases hi : i = a.size
    · rw [if_pos hi, Option.some.injEq] at hn
      rw [← hn, hi]
      rfl
    · rw [if_neg hi] at hn
      obtain ⟨m, hm, hnm⟩ := Option.map_eq_some_iff.1 hn
      have hid := h.numbered i m hm
      rw [← hnm]
      split <;> exact hid
  case older =>
    intro i p hp
    rw [parentOf?_extend] at hp
    by_cases hi : i = a.size
    · rw [if_pos hi, Option.some.injEq] at hp
      omega
    · rw [if_neg hi] at hp
      exact h.older i p hp
  case ordered =>
    intro p
    rw [childrenOf_extend_eq hparent]
    split
    · refine List.pairwise_append.2 ⟨h.ordered p, List.pairwise_singleton .., ?_⟩
      intro i hi j hj
      have hlt := (h.lt_size ((h.mem_iff p i).1 hi)).1
      rw [List.mem_singleton] at hj
      omega
    · exact h.ordered p
  case mem_iff =>
    intro p i
    have hold : i = a.size → i ∉ a.childrenOf p := by
      intro hi hmem
      have hlt := (h.lt_size ((h.mem_iff p i).1 hmem)).1
      omega
    rw [childrenOf_extend_eq hparent, parentOf?_extend]
    by_cases hi : i = a.size
    · rw [if_pos hi, Option.some.injEq]
      by_cases hp : p = parent
      · rw [if_pos hp, hi]
        simp [hp]
      · rw [if_neg hp]
        exact ⟨fun hmem => absurd hmem (hold hi), fun heq => absurd heq.symm hp⟩
    · rw [if_neg hi, ← h.mem_iff p i]
      by_cases hp : p = parent
      · rw [if_pos hp]
        simp [hi]
      · rw [if_neg hp]

/-- A change of an arena leaves its nodes a forest. -/
theorem Linked.change (h : a.Linked) (hchange : a.Change b) : b.Linked := by
  cases hchange with
  | refused => exact h
  | detached c =>
    refine ⟨?_, ?_, ?_, ?_⟩
    · intro i n hn
      rw [getElem?_newNode] at hn
      by_cases hi : i = a.size
      · rw [if_pos hi, Option.some.injEq] at hn
        rw [← hn, hi]
        rfl
      · rw [if_neg hi] at hn
        exact h.numbered i n hn
    · simpa only [parentOf?_newNode] using h.older
    · simpa only [childrenOf_newNode] using h.ordered
    · simpa only [parentOf?_newNode, childrenOf_newNode] using h.mem_iff
  | child hparent c => exact h.extend hparent c
  | @amended id f hf =>
    refine ⟨?_, ?_, ?_, ?_⟩
    · intro i n hn
      rw [getElem?_amend] at hn
      by_cases hi : id = i
      · rw [if_pos hi] at hn
        obtain ⟨m, hm, hnm⟩ := Option.map_eq_some_iff.1 hn
        rw [← hnm, (hf m).id]
        exact h.numbered i m hm
      · rw [if_neg hi] at hn
        exact h.numbered i n hn
    · simpa only [parentOf?_amend a id hf] using h.older
    · simpa only [childrenOf_amend a id hf] using h.ordered
    · simpa only [parentOf?_amend a id hf, childrenOf_amend a id hf] using h.mem_iff

/-- An arena keeps its own links. -/
theorem Keeps.refl (a : Arena) : a.Keeps a :=
  fun _ n hn => ⟨n, hn, rfl, rfl, List.prefix_refl _⟩

/-- Links that are kept twice are kept. -/
theorem Keeps.trans (h : a.Keeps b) (h' : b.Keeps d) : a.Keeps d := by
  intro i n hn
  obtain ⟨m, hm, hid, hparent, hchildren⟩ := h i n hn
  obtain ⟨l, hl, hid', hparent', hchildren'⟩ := h' i m hm
  exact ⟨l, hl, hid'.trans hid, hparent'.trans hparent, hchildren.trans hchildren'⟩

/-- A parent that is kept is the parent still. -/
theorem Keeps.parentOf? (h : a.Keeps b) {p c : Nat} (hparent : a.parentOf? c = some p) :
    b.parentOf? c = some p := by
  obtain ⟨n, hn, hp⟩ := Option.bind_eq_some_iff.1 hparent
  obtain ⟨m, hm, -, hsame, -⟩ := h c n hn
  rw [parentOf?_of_some hm, hsame, hp]

/-- A new child takes no link away: it is put behind the children of its parent. -/
theorem Keeps.extend (a : Arena) (parent : Nat) (c : Command) : a.Keeps (a.extend parent c) := by
  intro i n hn
  have hlt : i < a.size := (Array.getElem?_eq_some_iff.1 hn).1
  rw [getElem?_extend_of_lt hlt, hn]
  by_cases hparent : parent = i
  · refine ⟨n.addChildren [a.size], by rw [Option.map_some, if_pos hparent], rfl, rfl, ?_⟩
    simp [Node.addChildren]
  · exact ⟨n, by rw [Option.map_some, if_neg hparent], rfl, rfl, List.prefix_refl _⟩

/-- A change of a node that leaves its links alone takes none away. -/
theorem Keeps.amend (a : Arena) (id : Nat) {f : Node → Node} (hf : ∀ n, (f n).SameLinks n) :
    a.Keeps (a.amend id f) := by
  intro i n hn
  rw [getElem?_amend, hn]
  by_cases hi : id = i
  · refine ⟨f n, by rw [if_pos hi, Option.map_some], (hf n).id, (hf n).parent?, ?_⟩
    exact ⟨[], by rw [List.append_nil, (hf n).children]⟩
  · exact ⟨n, by rw [if_neg hi], rfl, rfl, List.prefix_refl _⟩

/-- A change of an arena keeps all its links. -/
theorem Change.keeps (h : a.Change b) : a.Keeps b := by
  cases h with
  | refused => exact .refl a
  | detached c =>
    intro i n hn
    have hlt : i < a.size := (Array.getElem?_eq_some_iff.1 hn).1
    have hne : i ≠ a.size := by omega
    refine ⟨n, ?_, rfl, rfl, List.prefix_refl _⟩
    rw [getElem?_newNode, if_neg hne]
    exact hn
  | child hparent c => exact .extend a _ c
  | amended id hf => exact .amend a id hf

/-! ## Operations -/

/-- The ids that lead to a node are the numbers of the nodes. -/
theorem exists_eq_of_contains {id : Int} (h : a.contains id = true) :
    ∃ i : Nat, id = i ∧ i < a.size := by
  obtain ⟨hnonneg, hlt⟩ := contains_eq_true_iff.1 h
  exact ⟨id.toNat, by omega, by omega⟩

/-- A change at an id of no node fails with that id and leaves the arena as it is. -/
theorem update_of_not_contains {id : Int} (h : ¬a.contains id = true) (f : Node → Node) :
    a.update id f = (.error ⟨.int id⟩, a) := by
  rw [update, if_neg h]

/-- An operation whose id leads to no node fails with that id and changes nothing. -/
theorem Operation.apply_of_not_contains {op : Operation} {id : Int} (htarget : op.target? = some id)
    (h : ¬a.contains id = true) : op.apply a = (.error ⟨.int id⟩, a) := by
  cases op with
  | newNode c => cases htarget
  | plant => cases htarget
  | append parent c =>
    cases htarget
    simp only [Operation.apply, Arena.append, update_of_not_contains h]
    rfl
  | setCommand id c =>
    cases htarget
    simp only [Operation.apply, Arena.setCommand, update_of_not_contains h]
    rfl
  | addCompanion id c =>
    cases htarget
    simp only [Operation.apply, Arena.addCompanion, update_of_not_contains h]
    rfl

/-- What an operation comes to whose id leads to a node. -/
theorem Operation.apply_cases (op : Operation) (h : ∀ id ∈ op.target?, a.contains id = true) :
    (∃ c, op.makesNode = true ∧ op.parent? = none ∧
      op.apply a = (.ok (some a.size), (a.newNode c).2)) ∨
    (∃ (parent : Nat) (c : Command), op.makesNode = true ∧ op.parent? = some (parent : Int) ∧
      parent < a.size ∧ op.apply a = (.ok (some a.size), a.extend parent c)) ∨
    (∃ (id : Nat) (f : Node → Node), op.makesNode = false ∧ op.parent? = none ∧
      (∀ n, (f n).SameLinks n) ∧ op.apply a = (.ok none, a.amend id f)) := by
  cases op with
  | newNode c => exact Or.inl ⟨c, rfl, rfl, rfl⟩
  | plant => exact Or.inl ⟨.sentinel, rfl, rfl, rfl⟩
  | append parent c =>
    obtain ⟨i, rfl, hi⟩ := exists_eq_of_contains (h parent rfl)
    have happend := append_eq hi c
    exact Or.inr (Or.inl ⟨i, c, rfl, rfl, hi, by simp only [Operation.apply, happend]; rfl⟩)
  | setCommand id c =>
    obtain ⟨i, rfl, hi⟩ := exists_eq_of_contains (h id rfl)
    have hset := setCommand_eq hi c
    refine Or.inr (Or.inr ⟨i, fun n => { n with command := c }, rfl, rfl, ?_, ?_⟩)
    · exact fun _ => ⟨rfl, rfl, rfl⟩
    · simp only [Operation.apply, hset]
      rfl
  | addCompanion id c =>
    obtain ⟨i, rfl, hi⟩ := exists_eq_of_contains (h id rfl)
    have hadd := addCompanion_eq hi c
    refine Or.inr (Or.inr ⟨i, fun n => { n with companions := n.companions ++ [c].toArray }, rfl,
      rfl, ?_, ?_⟩)
    · exact fun _ => ⟨rfl, rfl, rfl⟩
    · simp only [Operation.apply, hadd]
      rfl

/-- An operation whose id leads to a node succeeds. If it makes a node, that has the next number,
and the parent that it was asked for. -/
theorem Operation.apply_of_contains {op : Operation}
    (h : ∀ id ∈ op.target?, a.contains id = true) :
    (op.apply a).1 = .ok (if op.makesNode then some a.size else none) ∧
      (op.apply a).2.size = a.size + (if op.makesNode then 1 else 0) ∧
      (op.apply a).2.parentOf? a.size = op.parent?.map Int.toNat := by
  have hnone : a.parentOf? a.size = none := parentOf?_of_le (Nat.le_refl _)
  rcases op.apply_cases h with ⟨c, hmakes, hparent, happly⟩ |
    ⟨parent, c, hmakes, hparent, hlt, happly⟩ | ⟨id, f, hmakes, hparent, hf, happly⟩
  · rw [happly, hmakes, hparent]
    exact ⟨rfl, size_newNode a c, (parentOf?_newNode a c _).trans hnone⟩
  · rw [happly, hmakes, hparent]
    refine ⟨rfl, size_extend a parent c, ?_⟩
    rw [parentOf?_extend, if_pos rfl]
    rfl
  · rw [happly, hmakes, hparent]
    exact ⟨rfl, size_amend a id f, (parentOf?_amend a id hf _).trans hnone⟩

/-- Whatever ids it is given, an operation changes an arena in one of the ways there are. -/
theorem Operation.change (op : Operation) (a : Arena) : a.Change (op.apply a).2 := by
  by_cases h : ∀ id ∈ op.target?, a.contains id = true
  · rcases op.apply_cases h with ⟨c, -, -, happly⟩ | ⟨parent, c, -, -, hlt, happly⟩ |
      ⟨id, f, -, -, hf, happly⟩
    · rw [happly]
      exact .detached c
    · rw [happly]
      exact .child hlt c
    · rw [happly]
      exact .amended id hf
  · have hid : ∃ id, op.target? = some id ∧ ¬a.contains id = true := by simpa using h
    obtain ⟨id, htarget, hnot⟩ := hid
    rw [apply_of_not_contains htarget hnot]
    exact .refused

/-- The nodes are a forest after any operations. -/
theorem Linked.after (h : a.Linked) (ops : List Operation) : (a.after ops).Linked := by
  induction ops generalizing a with
  | nil => exact h
  | cons op ops ih => exact ih (h.change (op.change a))

/-- No operations take a link away. -/
theorem Keeps.after (a : Arena) (ops : List Operation) : a.Keeps (a.after ops) := by
  induction ops generalizing a with
  | nil => exact .refl a
  | cons op ops ih => exact (op.change a).keeps.trans (ih _)

/-- In a forest every parent lists each of its children once. -/
theorem Linked.count_childrenOf (h : a.Linked) (p c : Nat) :
    (a.childrenOf p).count c = if a.parentOf? c = some p then 1 else 0 := by
  have hnodup : (a.childrenOf p).Nodup := (h.ordered p).imp Nat.ne_of_lt
  by_cases hparent : a.parentOf? c = some p
  · rw [if_pos hparent, hnodup.count, if_pos ((h.mem_iff p c).2 hparent)]
  · rw [if_neg hparent, List.count_eq_zero]
    exact fun hmem => hparent ((h.mem_iff p c).1 hmem)

/-- In a forest every chain of parents ends, as it leads to ever older nodes. -/
theorem Linked.wellFounded (h : a.Linked) : WellFounded fun p c => a.parentOf? c = some p :=
  Subrelation.wf (fun hparent => h.older _ _ hparent) Nat.lt_wfRel.wf

/-- Exactly the numbers of the nodes lead to a node. -/
theorem get_cases (a : Arena) (id : Int) :
    (a.contains id = true ∧ ∃ n, a.get id = .ok n ∧ a.nodes[id.toNat]? = some n) ∨
      (¬a.contains id = true ∧ a.get id = .error ⟨.int id⟩) := by
  rw [← isSome_get?_iff]
  unfold get
  cases hget : a.get? id with
  | none => exact Or.inr ⟨Bool.false_ne_true, rfl⟩
  | some n =>
    refine Or.inl ⟨rfl, n, rfl, ?_⟩
    unfold get? at hget
    split at hget
    · exact hget
    · cases hget

/-- Whatever is read of a node fails where the node is not found. -/
theorem reads_of_error {id : Int} {e : NodeNotFound} (h : a.get id = .error e) :
    a.children id = .error e ∧ a.parent? id = .error e ∧ a.command id = .error e ∧
      a.companions id = .error e ∧ a.descendants id = .error e ∧ a.depth id = .error e := by
  simp [children, parent?, command, companions, descendants, depth, h, Except.map]

/-- After any operations, some of which may have failed, the nodes of an arena are a forest: every
node has the number at which it stands, is made after its parent and is listed once by its parent
and by no other node, and every chain of parents ends. Exactly the numbers of the nodes lead to a
node; an operation on another id fails with that id and changes nothing, and one that succeeds makes
the node that it was asked for, under the parent that it was asked for. All links that there are
stay in place. -/
theorem linked_history (ops : List Operation) :
    let a := history ops
    a.Linked ∧ (∀ p c, (a.childrenOf p).count c = if a.parentOf? c = some p then 1 else 0) ∧
      (WellFounded fun p c => a.parentOf? c = some p) ∧
      (∀ id : Int, (0 ≤ id ∧ id < a.size → ∃ n, a.get id = .ok n ∧ n.id = id) ∧
        (¬(0 ≤ id ∧ id < a.size) → a.get id = .error ⟨.int id⟩ ∧ a.children id = .error ⟨.int id⟩ ∧
          a.parent? id = .error ⟨.int id⟩ ∧ a.command id = .error ⟨.int id⟩ ∧
          a.companions id = .error ⟨.int id⟩ ∧ a.descendants id = .error ⟨.int id⟩ ∧
          a.depth id = .error ⟨.int id⟩)) ∧
      (∀ op : Operation,
        (∀ id, op.target? = some id → ¬(0 ≤ id ∧ id < a.size) →
          op.apply a = (.error ⟨.int id⟩, a)) ∧
        ((∀ id ∈ op.target?, 0 ≤ id ∧ id < a.size) →
          (op.apply a).1 = .ok (if op.makesNode then some a.size else none) ∧
          (op.apply a).2.size = a.size + (if op.makesNode then 1 else 0) ∧
          (op.apply a).2.parentOf? a.size = op.parent?.map Int.toNat)) ∧
      ∀ more : List Operation, a.Keeps (history (ops ++ more)) := by
  intro a
  have hlinked : a.Linked := linked_empty.after ops
  refine ⟨hlinked, hlinked.count_childrenOf, hlinked.wellFounded, ?_, ?_, ?_⟩
  · intro id
    rw [← contains_eq_true_iff]
    rcases a.get_cases id with ⟨hcontains, n, hget, hn⟩ | ⟨hnot, hget⟩
    · obtain ⟨i, rfl, -⟩ := exists_eq_of_contains hcontains
      refine ⟨fun _ => ⟨n, hget, ?_⟩, fun hnot => absurd hcontains hnot⟩
      rw [hlinked.numbered i n hn]
    · exact ⟨fun hcontains => absurd hcontains hnot, fun _ => ⟨hget, reads_of_error hget⟩⟩
  · intro op
    simp only [← contains_eq_true_iff]
    exact ⟨fun id htarget hnot => op.apply_of_not_contains htarget hnot,
      fun hcontains => op.apply_of_contains hcontains⟩
  · intro more
    have hwhole : history (ops ++ more) = a.after more := List.foldl_append
    rw [hwhole]
    exact .after a more

/-- A tree with two nodes, one below the other, and a detached node. Two of the operations fail. -/
theorem linked_history_sample :
    let c : Command := .sentinel
    let ops : List Operation :=
      [.plant, .append 0 c, .append (-1) c, .append 1 c, .newNode c, .setCommand 7 c,
        .addCompanion 2 c]
    let a := history ops
    a.Linked ∧ a.childrenOf 0 = [1] ∧ a.childrenOf 1 = [2] ∧
      (¬(0 ≤ (4 : Int) ∧ (4 : Int) < a.size) ∧
        (Operation.append 4 c).apply a = (.error ⟨.int 4⟩, a)) ∧
      (0 ≤ (1 : Int) ∧ (1 : Int) < a.size) ∧
      ((Operation.append 1 c).apply a).1 = .ok (some a.size) ∧
      a.Keeps (history (ops ++ [.append 1 c, .append 9 c])) := by
  intro c ops a
  have hsize : a.size = 4 := by decide +kernel
  have hchildren : a.childrenOf 0 = [1] ∧ a.childrenOf 1 = [2] := by decide +kernel
  have hfew : ¬(0 ≤ (4 : Int) ∧ (4 : Int) < a.size) := by omega
  have hmany : 0 ≤ (1 : Int) ∧ (1 : Int) < a.size := by omega
  obtain ⟨hlinked, -, -, -, happly, hkeeps⟩ := linked_history ops
  have hmade := ((happly (.append 1 c)).2 (by rintro id ⟨⟩; exact hmany)).1
  exact ⟨hlinked, hchildren.1, hchildren.2, ⟨hfew, (happly (.append 4 c)).1 4 rfl hfew⟩, hmany,
    hmade, hkeeps _⟩

end Arena

end PageOutline
