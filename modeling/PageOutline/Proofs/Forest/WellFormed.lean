import PageOutline.Proofs.Forest.Layout
import PageOutline.Proofs.Forest.Parsing

/-!
# Well-formed trees

The nodes of a tree are of two sorts: those placed in a body, and the arms of scopes. What a node
may have below it follows from its sort and from what the database says of its command. Joining
lines to a text changes neither, as it keeps the code and the number of parameters.
-/

namespace PageOutline

/-- Whether a command starts an arm depends on its code and on the number of its parameters. -/
theorem ScopeKind.findBranch?_congr {c d : Command} (hcode : c.code = d.code)
    (hlength : c.parameters.length = d.parameters.length) (kind : ScopeKind) (matching : Matching) :
    kind.findBranch? matching c = kind.findBranch? matching d := by
  unfold findBranch?
  congr 1
  funext b
  rw [Branch.accepts, Branch.accepts, hcode, hlength]

/-- A command that passes a scope passes it with lines joined to its text, as its code and the
number of its parameters stay. -/
theorem ScopeKind.Passes.joined {kind : ScopeKind} {matching : Matching} {c : Command}
    (h : kind.Passes matching c) (lines : List Command) :
    kind.Passes matching (c.joined lines) := by
  have hbranch := kind.findBranch?_congr (c.code_joined lines) (c.length_parameters_joined lines)
    matching
  rw [Passes, hbranch, Command.code_joined]
  exact h

namespace Arena

mutual

/-- A node for a command in a body, as the database describes its command: the opening command of a
scope has below it what comes before the first delimiter and then the arms, any other command has
nothing, and only a route has companions. Nothing in a body ends the scope or starts an arm. -/
inductive Placed (db : Database) (matching : Matching) (a : Arena) : Nat → Prop where
  | alone {id : Nat} {n : Node} (hnode : a.nodes[id]? = some n)
      (hcode : n.command.isSentinel = false)
      (hkind : ∀ kind, db.kind? n.command.code ≠ some (.scope kind)) (hchildren : n.children = #[])
      (hcompanions : n.companions = #[] ∨
        ∃ continuation, db.kind? n.command.code = some (.route continuation) ∧
          ∀ c ∈ n.companions, continuation.holds c.code = true) :
      Placed db matching a id
  | scope {id : Nat} {n : Node} {kind : ScopeKind} (body arms : List Nat)
      (hnode : a.nodes[id]? = some n) (hcode : n.command.isSentinel = false)
      (hkind : db.kind? n.command.code = some (.scope kind))
      (hchildren : n.children.toList = body ++ arms) (hcompanions : n.companions = #[])
      (hbody : ∀ child ∈ body, Placed db matching a child)
      (hpasses : ∀ child ∈ body, kind.Passes matching (a.commandAt child))
      (harms : ∀ child ∈ arms, Arm db matching a kind child) :
      Placed db matching a id

/-- A node for a delimiter of a scope. Whatever the database says of its command, it has a body
below it and nothing else. -/
inductive Arm (db : Database) (matching : Matching) (a : Arena) : ScopeKind → Nat → Prop where
  | mk {kind : ScopeKind} {id : Nat} {n : Node} (hnode : a.nodes[id]? = some n)
      (hbranch : (kind.findBranch? matching n.command).isSome = true)
      (hnot : ¬kind.terminator.code.holds n.command.code = true) (hcompanions : n.companions = #[])
      (hbody : ∀ child ∈ n.children.toList, Placed db matching a child)
      (hpasses : ∀ child ∈ n.children.toList, kind.Passes matching (a.commandAt child)) :
      Arm db matching a kind id

end

end Arena

/-- A tree is well formed when its root has no companions, the nodes right below the root are placed
and no node lies outside of what is below these. -/
structure Tree.WellFormed (db : Database) (matching : Matching) (t : Tree) : Prop where
  root : ∃ n, t.arena.nodes[t.root]? = some n ∧ n.companions = #[]
  topLevel : ∀ id ∈ t.topLevel, t.arena.Placed db matching id
  whole : ∀ id, id < t.arena.size → id = t.root ∨ id ∈ t.walk.map Prod.fst

namespace Forest

variable {db : Database} {matching : Matching} {a : Arena} {layer : Layer}

/-- What the outermost nodes of a forest are in an arena that holds it. -/
def Settles (db : Database) (matching : Matching) (a : Arena) :
    {layer : Layer} → (around? : Option ScopeKind) → (next : Nat) → Forest layer → Prop
  | .body, around?, next, f => ∀ id ∈ f.roots next,
    a.Placed db matching id ∧ ∀ kind ∈ around?, kind.Passes matching (a.commandAt id)
  | .arms, around?, next, f => ∀ id ∈ f.roots next, ∀ kind ∈ around?, a.Arm db matching kind id

/-- The nodes of a forest that fits are placed, or they are arms of the scope around it. -/
theorem settles {f : Forest layer} {around? : Option ScopeKind} {after : Option Command}
    {parent next : Nat} (hfits : f.Fits db matching around? after)
    (h : a.Holds next (f.nodes parent next)) : f.Settles db matching a around? next := by
  induction f generalizing parent next around? after with
  | nil => cases ‹Layer› <;> exact fun id hid => absurd hid List.not_mem_nil
  | padding c rest ih => exact ih hfits.2.2 h
  | leaf c rest ih =>
    obtain ⟨hcode, hpasses, hkind, hrest⟩ := hfits
    obtain ⟨hnode, hnodes⟩ := h
    refine List.forall_mem_cons.2 ⟨⟨?_, ?_⟩, ih hrest hnodes⟩
    · exact .alone hnode hcode (fun kind hscope => hkind _ hscope) rfl (Or.inl rfl)
    · rw [Arena.commandAt_of_some hnode]
      exact hpasses
  | text c lines rest ih =>
    obtain ⟨hcode, hpasses, ⟨continuation, hkind, -, -⟩, hrest⟩ := hfits
    obtain ⟨hnode, hnodes⟩ := h
    refine List.forall_mem_cons.2 ⟨⟨?_, ?_⟩, ih hrest hnodes⟩
    · refine .alone hnode ?_ ?_ rfl (Or.inl rfl)
      · rw [Command.isSentinel, Command.code_joined]
        exact hcode
      · rw [Command.code_joined, hkind]
        exact fun kind hscope => by cases hscope
    · rw [Arena.commandAt_of_some hnode]
      exact fun kind hmem => (hpasses kind hmem).joined lines
  | route c entries rest ih =>
    obtain ⟨hcode, hpasses, ⟨continuation, hkind, hentries, -⟩, hrest⟩ := hfits
    obtain ⟨hnode, hnodes⟩ := h
    refine List.forall_mem_cons.2 ⟨⟨?_, ?_⟩, ih hrest hnodes⟩
    · refine .alone hnode hcode ?_ rfl (Or.inr ⟨continuation, hkind, by simpa using hentries⟩)
      rw [hkind]
      exact fun kind hscope => by cases hscope
    · rw [Arena.commandAt_of_some hnode]
      exact hpasses
  | scope c body arms terminator rest ihBody ihArms ih =>
    obtain ⟨hcode, hpasses, ⟨kind, hkind, hbody, harms, -⟩, hrest⟩ := hfits
    obtain ⟨hnode, hbodyNodes, harmsNodes, hrestNodes⟩ := holds_scope.1 h
    have hplaced := ihBody hbody hbodyNodes
    have harm := ihArms harms harmsNodes
    refine List.forall_mem_cons.2 ⟨⟨?_, ?_⟩, ih hrest hrestNodes⟩
    · exact .scope _ _ hnode hcode hkind rfl rfl (fun id hid => (hplaced id hid).1)
        (fun id hid => (hplaced id hid).2 kind rfl) (fun id hid => harm id hid kind rfl)
    · rw [Arena.commandAt_of_some hnode]
      exact hpasses
  | arm delimiter body rest ihBody ih =>
    obtain ⟨⟨kind, rfl, hnot, hbranch⟩, hbody, hrest⟩ := hfits
    obtain ⟨hnode, hbodyNodes, hrestNodes⟩ := holds_arm.1 h
    have hplaced := ihBody hbody hbodyNodes
    refine List.forall_mem_cons.2 ⟨?_, ih hrest hrestNodes⟩
    rintro _ ⟨⟩
    exact .mk hnode hbranch hnot rfl (fun id hid => (hplaced id hid).1)
      (fun id hid => (hplaced id hid).2 kind rfl)

/-- The tree of a forest that fits its database is well-formed. -/
theorem wellFormed_tree {f : Forest .body} (hfits : f.Fits db matching none none) :
    f.tree.WellFormed db matching := by
  have hsettles := settles hfits f.holds_tree
  refine ⟨⟨_, rfl, rfl⟩, ?_, ?_⟩
  · rw [topLevel_tree]
    exact fun id hid => (hsettles id hid).1
  · intro id hid
    rw [walk_tree, size_tree, List.mem_range'_1]
    rw [size_arena_tree] at hid
    rcases Nat.eq_zero_or_pos id with rfl | hpos
    · exact Or.inl rfl
    · exact Or.inr ⟨hpos, by omega⟩

end Forest

/-- Every tree that a page gives is well formed for the database and the way of matching that it was
parsed with. -/
theorem wellFormed_of_parsePageWithin {db : Database} {matching : Matching} {room : Nat}
    {diagnostics : Diagnostics} {log : Array LogRecord} {page : List Command} {tree : Tree}
    (h : (parsePageWithin room db matching diagnostics log page).outcome = .ok tree) :
    tree.WellFormed db matching := by
  obtain ⟨f, -, hfits, hresult⟩ := Forest.exists_of_parsePageWithin h
  rw [hresult] at h
  cases h
  exact Forest.wellFormed_tree hfits

/-- The tree of a page with a scope of two arms, a text and a route. -/
theorem wellFormed_sample :
    (parsePageWithin 1 .sample .code (.empty true) #[] Forest.sample.flatten).outcome =
        .ok Forest.sample.tree ∧
      Forest.sample.tree.WellFormed .sample .code := by
  have h : (parsePageWithin 1 .sample .code (.empty true) #[] Forest.sample.flatten).outcome =
      .ok Forest.sample.tree := rfl
  exact ⟨h, wellFormed_of_parsePageWithin h⟩

end PageOutline
