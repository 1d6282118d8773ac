import PageOutline.Proofs.Links
import PageOutline.Proofs.Sweep.Page

/-!
# The arena of a sweep is a forest

A sweep makes nodes only as children of the root or of an arm, and those were made before. So its
arena is a forest at every point, as any arena is that the operations of the library have made, and
what is known of such arenas holds for the tree of every page.
-/

namespace PageOutline

namespace Sweep

/-- The arena of a sweep is a forest, which has the root and the nodes of the open scopes. -/
structure Rooted (s : Sweep) : Prop where
  linked : s.arena.Linked
  root : s.root < s.arena.size
  scopes : ∀ scope ∈ s.scopes, scope.node < s.arena.size ∧ scope.arm < s.arena.size

variable {db : Database} {matching : Matching} {s t : Sweep} {c : Command} {role : Role}

/-- The node that receives commands is there. -/
theorem Rooted.parent_lt (h : s.Rooted) : s.parent < s.arena.size := by
  unfold parent
  cases hscopes : s.scopes with
  | nil => exact h.root
  | cons scope outer => exact (h.scopes scope (by simp [hscopes])).2

/-- A step that keeps every node, and opens scopes only at nodes that there are. -/
theorem Rooted.next (h : s.Rooted) {arena : Arena} (hlinked : arena.Linked)
    (hsize : s.arena.size ≤ arena.size) {scopes : List Scope}
    (hscopes : ∀ scope ∈ scopes, scope ∈ s.scopes ∨
      scope.node < arena.size ∧ scope.arm < arena.size)
    (absorber? : Option Absorber) (issues : List Diagnostic) :
    (s.next arena scopes absorber? issues).Rooted := by
  refine ⟨hlinked, Nat.lt_of_lt_of_le h.root hsize, fun scope hscope => ?_⟩
  rcases hscopes scope hscope with hopen | hnew
  · obtain ⟨hnode, harm⟩ := h.scopes scope hopen
    exact ⟨Nat.lt_of_lt_of_le hnode hsize, Nat.lt_of_lt_of_le harm hsize⟩
  · exact hnew

/-- A node that takes a command in stays where it is. -/
theorem Rooted.amend (h : s.Rooted) (node : Nat) {f : Node → Node} (hf : ∀ n, (f n).SameLinks n)
    (absorber? : Option Absorber) (issues : List Diagnostic) :
    (s.next (s.arena.amend node f) s.scopes absorber? issues).Rooted :=
  h.next (h.linked.change (.amended node hf)) (Nat.le_of_eq (Arena.size_amend ..).symm)
    (fun _ hscope => .inl hscope) absorber? issues

/-- A command in a body gets a node below the current parent. -/
theorem Rooted.extend (h : s.Rooted) (c : Command) (absorber? : Option Absorber)
    (issues : List Diagnostic) :
    (s.next (s.arena.extend s.parent c) s.scopes absorber? issues).Rooted :=
  h.next (h.linked.extend h.parent_lt c) (by rw [Arena.size_extend]; omega)
    (fun _ hscope => .inl hscope) absorber? issues

/-- One step keeps the arena a forest. -/
theorem Step.rooted (hstep : Step db matching s c role t) (h : s.Rooted) : t.Rooted := by
  cases hstep with
  | @merged node continuation joined habsorber hholds hjoin =>
    exact h.amend node (f := fun n => { n with command := joined }) (fun n => ⟨rfl, rfl, rfl⟩) _ _
  | @companion node =>
    exact h.amend node (f := fun n => { n with companions := n.companions ++ #[c] })
      (fun n => ⟨rfl, rfl, rfl⟩) _ _
  | dropped | padding => exact h.next h.linked (Nat.le_refl _) (fun _ hscope => .inl hscope) _ _
  | @terminator scope outer hfree hscopes hterm =>
    refine h.next h.linked (Nat.le_refl _) (fun other hother => .inl ?_) _ _
    rw [hscopes]
    exact List.mem_cons_of_mem _ hother
  | @delimiter scope outer hfree hscopes hterm hbranch =>
    have hnode : scope.node < s.arena.size := (h.scopes scope (by simp [hscopes])).1
    refine h.next (h.linked.extend hnode c) (by rw [Arena.size_extend]; omega) ?_ _ _
    intro other hother
    rcases List.mem_cons.1 hother with rfl | hother
    · rw [Arena.size_extend]
      exact .inr ⟨by dsimp only; omega, by dsimp only; omega⟩
    · rw [hscopes]
      exact .inl (List.mem_cons_of_mem _ hother)
  | opener hfree hpasses hpad hkind =>
    refine h.next (h.linked.extend h.parent_lt c) (by rw [Arena.size_extend]; omega) ?_ _ _
    intro other hother
    rcases List.mem_cons.1 hother with rfl | hother
    · rw [Arena.size_extend]
      exact .inr ⟨by dsimp only; omega, by dsimp only; omega⟩
    · exact .inl hother
  | text | route | leaf => exact h.extend c _ _

/-- A sweep keeps its arena a forest. -/
theorem Rooted.run (h : s.Rooted) (cs : List Command) : (s.run db matching cs).Rooted := by
  induction cs generalizing s with
  | nil => exact h
  | cons c cs ih => exact ih ((step_spec db matching s c).rooted h)

/-- At the start the arena is a forest, with the root alone. -/
theorem rooted_blank : blank.Rooted where
  linked := Arena.linked_empty.change (.detached .sentinel)
  root := by decide
  scopes := by simp [blank, start]

end Sweep

open Sweep

variable {db : Database} {matching : Matching} {room : Nat} {diagnostics : Diagnostics}
  {log : Array LogRecord} {page : List Command} {tree : Tree}

/-- The tree of a page is rooted in a forest. -/
theorem linked_of_parsePageWithin
    (h : (parsePageWithin room db matching diagnostics log page).outcome = .ok tree) :
    tree.arena.Linked ∧ tree.root < tree.arena.size := by
  have houtcome := (outcome_of_peak_le (peak_le_of_ok h)).symm.trans h
  have hrooted : (pageEnd db matching page).Rooted := rooted_blank.run page
  rw [(outcome_eq_ok_iff.1 houtcome).2]
  exact ⟨hrooted.linked, hrooted.root⟩

end PageOutline
