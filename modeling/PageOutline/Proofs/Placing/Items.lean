import PageOutline.Proofs.Joining.Beside
import PageOutline.Proofs.Links
import Mathlib.Logic.Relation

/-!
# Items

An item is a forest with one outermost node: a command with all that it owns. Put under a node of an
arena, its nodes lie below one new child of that node, and only the outermost of them knows which
node that is.
-/

namespace PageOutline

namespace Forest

variable {db : Database} {matching : Matching} {layer : Layer}

/-- Two forests in a row are written one after the other. -/
theorem flatten_append (f g : Forest layer) : (f.append g).flatten = f.flatten ++ g.flatten := by
  induction f with
  | nil => rfl
  | padding c rest ih | leaf c rest ih => simp [append, flatten, ih]
  | text c lines rest ih | route c entries rest ih => simp [append, flatten, ih]
  | scope c body arms terminator rest ihBody ihArms ih => simp [append, flatten, ih]
  | arm delimiter body rest ihBody ih => simp [append, flatten, ih]

/-- Two forests in a row begin with the first command of either. -/
theorem first_append (f g : Forest layer) (after : Option Command) :
    (f.append g).first after = f.first (g.first after) := by
  simp [first, flatten_append, List.head?_append, Option.or_assoc]

/-- Nothing put behind a forest is no change. -/
theorem append_nil (f : Forest layer) : f.append .nil = f := by
  induction f with
  | nil => rfl
  | _ => simp_all [append]

/-- Forests in a row may be grouped in any way. -/
theorem append_assoc (f g h : Forest layer) : (f.append g).append h = f.append (g.append h) := by
  induction f with
  | nil => rfl
  | _ => simp_all [append]

/-- Two forests in a row are as deep as the deeper one. -/
theorem depth_append (f g : Forest layer) : (f.append g).depth = max f.depth g.depth := by
  induction f with
  | nil => simp [append, depth]
  | padding c rest ih | leaf c rest ih | text c lines rest ih | route c entries rest ih =>
    exact ih g
  | scope c body arms terminator rest ihBody ihArms ih =>
    simp only [append, depth, ih, Nat.max_assoc]
  | arm delimiter body rest ihBody ih => simp only [append, depth, ih, Nat.max_assoc]

/-- Two forests fit one after the other if the first fits with what the second begins with. -/
theorem fits_append {f g : Forest layer} {around? : Option ScopeKind} {after : Option Command} :
    (f.append g).Fits db matching around? after ↔
      f.Fits db matching around? (g.first after) ∧ g.Fits db matching around? after := by
  induction f with
  | nil => simp [append, Fits]
  | padding c rest ih | leaf c rest ih => simp only [append, Fits, ih, and_assoc]
  | text c lines rest ih | route c entries rest ih =>
    simp only [append, Fits, ih, first_append, and_assoc]
  | scope c body arms terminator rest ihBody ihArms ih => simp only [append, Fits, ih, and_assoc]
  | arm delimiter body rest ihBody ih => simp only [append, Fits, ih, first_append, and_assoc]

/-- A forest that is one command with all that it owns. -/
inductive IsItem : Forest .body → Prop
  | leaf (c : Command) : IsItem (.leaf c .nil)
  | text (c : Command) (lines : List Command) : IsItem (.text c lines .nil)
  | route (c : Command) (entries : List Command) : IsItem (.route c entries .nil)
  | scope (c : Command) (body : Forest .body) (arms : Forest .arms) (terminator : Command) :
    IsItem (.scope c body arms terminator .nil)

/-- An item has one root. -/
theorem IsItem.roots_eq {f : Forest .body} (h : f.IsItem) (next : Nat) : f.roots next = [next] := by
  cases h <;> rfl

/-- Only the outermost node of an item depends on the node that the item is put under. -/
theorem IsItem.nodes_eq {f : Forest .body} (h : f.IsItem) (next : Nat) :
    ∃ (n : Node) (others : List Node), ∀ parent,
      f.nodes parent next = { n with parent? := some parent } :: others := by
  cases h with
  | leaf c => exact ⟨⟨next, c, none, #[], #[]⟩, [], fun _ => rfl⟩
  | text c lines => exact ⟨⟨next, c.joined lines, none, #[], #[]⟩, [], fun _ => rfl⟩
  | route c entries => exact ⟨⟨next, c, none, #[], entries.toArray⟩, [], fun _ => rfl⟩
  | scope c body arms terminator =>
    let children := body.roots (next + 1) ++ arms.roots (next + 1 + body.count)
    exact ⟨⟨next, c, none, children.toArray, #[]⟩,
      body.nodes next (next + 1) ++ (arms.nodes next (next + 1 + body.count) ++ []), fun _ => rfl⟩

/-- An item has at least one node. -/
theorem IsItem.count_pos {f : Forest .body} (h : f.IsItem) : 0 < f.count := by
  cases h <;> exact Nat.succ_pos _

/-- Every node of a forest lies below the node that the forest is put under. -/
theorem transGen_of_holds (f : Forest layer) {a : Arena} {parent next : Nat}
    (h : a.Holds next (f.nodes parent next)) {i : Nat} (hlow : next ≤ i)
    (hhigh : i < next + f.count) :
    Relation.TransGen (fun p c => a.parentOf? c = some p) parent i := by
  induction f generalizing parent next with
  | nil => exact absurd hhigh (Nat.not_lt.2 hlow)
  | padding c rest ih => exact ih h hlow hhigh
  | leaf c rest ih | text c lines rest ih | route c entries rest ih =>
    obtain ⟨hnode, hrest⟩ := h
    rw [count] at hhigh
    rcases Nat.eq_or_lt_of_le hlow with rfl | hlater
    · exact .single (Arena.parentOf?_of_some hnode)
    · exact ih hrest hlater (by omega)
  | scope c body arms terminator rest ihBody ihArms ih =>
    obtain ⟨hnode, hbody, harms, hrest⟩ := holds_scope.1 h
    rw [count] at hhigh
    have hlink : a.parentOf? next = some parent := Arena.parentOf?_of_some hnode
    rcases Nat.eq_or_lt_of_le hlow with rfl | hlater
    · exact .single hlink
    · by_cases hends : i < next + 1 + body.count
      · exact .head hlink (ihBody hbody hlater hends)
      · by_cases hends' : i < next + 1 + body.count + arms.count
        · exact .head hlink (ihArms harms (Nat.le_of_not_lt hends) hends')
        · exact ih hrest (Nat.le_of_not_lt hends') (by omega)
  | arm delimiter body rest ihBody ih =>
    obtain ⟨hnode, hbody, hrest⟩ := holds_arm.1 h
    rw [count] at hhigh
    have hlink : a.parentOf? next = some parent := Arena.parentOf?_of_some hnode
    rcases Nat.eq_or_lt_of_le hlow with rfl | hlater
    · exact .single hlink
    · by_cases hends : i < next + 1 + body.count
      · exact .head hlink (ihBody hbody hlater hends)
      · exact ih hrest (Nat.le_of_not_lt hends) (by omega)

/-- Every other node of an item lies below its outermost node. -/
theorem IsItem.transGen {f : Forest .body} (hitem : f.IsItem) {a : Arena} {parent next : Nat}
    (h : a.Holds next (f.nodes parent next)) {i : Nat} (hlow : next < i)
    (hhigh : i < next + f.count) :
    Relation.TransGen (fun p c => a.parentOf? c = some p) next i := by
  cases hitem with
  | leaf c | text c lines | route c entries =>
    simp only [count] at hhigh
    omega
  | scope c body arms terminator =>
    obtain ⟨-, hbody, harms, -⟩ := holds_scope.1 h
    simp only [count] at hhigh
    by_cases hends : i < next + 1 + body.count
    · exact body.transGen_of_holds hbody hlow hends
    · exact arms.transGen_of_holds harms (Nat.le_of_not_lt hends) (by omega)

end Forest

namespace Arena

variable {a : Arena} {parent : Nat}

/-- Two forests under one node are one forest. -/
theorem graft_append {layer : Layer} (h : parent < a.size) (f g : Forest layer) :
    (a.graft parent f).graft parent g = a.graft parent (f.append g) := by
  rw [graft, size_graft, graft, attach_attach h, ← Forest.roots_append, ← Forest.nodes_append]
  rfl

/-- An arena holds the block that was put into it. -/
theorem holds_attach (a : Arena) (parent : Nat) (ids : List Nat) (block : List Node) :
    (a.attach parent ids block).Holds a.size block := by
  have hparts (nodes : Array Node) : (nodes.toList ++ block).toArray = nodes ++ block.toArray := by
    simp
  have hnodes := holds_toArray (a.nodes.modify parent (·.addChildren ids)).toList block
  rw [hparts, Array.length_toList, Array.size_modify] at hnodes
  exact hnodes

end Arena

end PageOutline
