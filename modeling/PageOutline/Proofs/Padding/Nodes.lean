import PageOutline.CommandSet
import PageOutline.Proofs.Forest.Layout
import PageOutline.Proofs.Forest.Parsing
import PageOutline.Proofs.Issues

/-!
# Padding and nodes

Padding that stands in a body gets no node. A scope looks for its delimiters before it leaves
padding out, though, and nothing keeps a descriptor from giving a delimiter the code of padding.
Such delimiters are the only commands with that code that have a node of their own.
-/

namespace PageOutline

/-- Whether a scope has a delimiter with the code of padding. -/
def ScopeKind.dividesAtPadding (kind : ScopeKind) : Bool :=
  kind.branches.any (·.code.holds Command.paddingCode)

/-- Padding is told by its code alone. -/
theorem Command.isSentinel_iff {c : Command} : c.isSentinel = true ↔ c.code = paddingCode := by
  simp [isSentinel]

/-- A scope in which padding starts an arm has a delimiter for it. -/
theorem ScopeKind.dividesAtPadding_of_findBranch? {kind : ScopeKind} {matching : Matching}
    {c : Command} (hpad : c.isSentinel = true)
    (hbranch : (kind.findBranch? matching c).isSome = true) : kind.dividesAtPadding = true := by
  have hcode : c.code = Command.paddingCode := Command.isSentinel_iff.1 hpad
  obtain ⟨b, hmem, haccepts⟩ := List.find?_isSome.1 hbranch
  have hholds : b.code.holds Command.paddingCode = true := by
    rw [← hcode]
    exact (Bool.and_eq_true_iff.1 haccepts).1
  exact List.any_eq_true.2 ⟨b, hmem, hholds⟩

namespace Sweep

variable {db : Database} {matching : Matching} {s t : Sweep} {c : Command} {role : Role} {id : Nat}

/-- A step makes a node for a command with the code of padding only if that is a delimiter. -/
theorem Step.exists_delimiter (h : Step db matching s c role t) (hpad : c.isSentinel = true)
    (hnode : role.node? = some id) : ∃ scope, role = .delimiter id scope := by
  cases h with
  | merged | dropped | companion | terminator | padding => cases hnode
  | @delimiter scope outer hfree hscopes hterm hbranch =>
    cases hnode
    exact ⟨scope.node, rfl⟩
  | opener hfree hpasses hnot | text hfree hpasses hnot | route hfree hpasses hnot
  | leaf hfree hpasses hnot =>
    rw [hpad] at hnot
    cases hnot

/-- A run makes nodes for commands with the code of padding only if they are delimiters. -/
theorem exists_delimiter_of_mem_ledger {cs : List Command}
    (hmem : (c, role) ∈ s.ledger db matching cs) (hpad : c.isSentinel = true)
    (hnode : role.node? = some id) : ∃ scope, role = .delimiter id scope := by
  induction cs generalizing s with
  | nil => exact absurd hmem List.not_mem_nil
  | cons d cs ih =>
    rw [ledger] at hmem
    rcases List.mem_cons.1 hmem with heq | hmem
    · cases heq
      exact (step_spec db matching s c).exists_delimiter hpad hnode
    · exact ih hmem

end Sweep

open Sweep

variable {db : Database} {matching : Matching} {room : Nat} {diagnostics : Diagnostics}
  {log : Array LogRecord} {page : List Command} {tree : Tree}

/-- The tree of a page is what the sweep over it has built, and its nodes are those of the
ledger. -/
theorem arena_eq_of_parsePageWithin
    (h : (parsePageWithin room db matching diagnostics log page).outcome = .ok tree) :
    tree.arena = (pageEnd db matching page).arena ∧ tree.root = 0 ∧
      tree.walk.map Prod.fst = (pageLedger db matching page).nodes := by
  have houtcome := (outcome_of_peak_le (peak_le_of_ok h)).symm.trans h
  have harena : tree.arena = (pageEnd db matching page).arena := by
    rw [(outcome_eq_ok_iff.1 houtcome).2]
  obtain ⟨f, -, -, hresult⟩ := Forest.exists_of_parsePageWithin h
  rw [hresult] at h
  have htree : tree = f.tree := (Except.ok.inj h).symm
  refine ⟨harena, by rw [htree]; rfl, ?_⟩
  rw [(books_pageEnd db matching page).describes.nodes, ← harena, htree]
  exact f.walk_tree

/-- The command that a node was made for has the code that the node shows. -/
theorem Ledger.Accounts.exists_entry {ledger : Ledger} {n : Node} (h : ledger.Accounts db n) :
    ∃ c role, (c, role) ∈ ledger ∧ role.node? = some n.id ∧ n.command.code = c.code := by
  obtain ⟨before, c, role, taken, after, rfl, hrecords, -⟩ := h
  have hmem : (c, role) ∈ before ++ (c, role) :: (taken ++ after) :=
    List.mem_append_right _ List.mem_cons_self
  exact ⟨c, role, hmem, hrecords.node, hrecords.code⟩

/-- The opening command of the scope that a delimiter divides is a command of the page. -/
theorem exists_opener_of_delimiter {scope node : Nat} {c : Command}
    (hmem : (c, Role.delimiter node scope) ∈ pageLedger db matching page) :
    ∃ opener ∈ page, ∃ kind, db.kind? opener.code = some (.scope kind) ∧
      (kind.findBranch? matching c).isSome = true := by
  obtain ⟨opener, kind, hopener, hkind, hbranch⟩ :=
    (books_pageEnd db matching page).grounds _ hmem
  have hpage : opener ∈ page := by
    rw [← map_fst_pageLedger db matching page]
    exact List.mem_map.2 ⟨_, hopener, rfl⟩
  exact ⟨opener, hpage, kind, hkind, hbranch⟩

/-- A node has the code of padding exactly if it was made for a delimiter with that code. -/
theorem isSentinel_commandAt_iff
    (h : (parsePageWithin room db matching diagnostics log page).outcome = .ok tree) {id : Nat}
    (hid : id ∈ tree.walk.map Prod.fst) :
    (tree.arena.commandAt id).isSentinel = true ↔
      ∃ c scope, (c, Role.delimiter id scope) ∈ pageLedger db matching page ∧
        c.isSentinel = true := by
  obtain ⟨harena, -, hwalk⟩ := arena_eq_of_parsePageWithin h
  have hdescribes := (books_pageEnd db matching page).describes
  rw [hwalk] at hid
  obtain ⟨n, hn, rfl, haccounts⟩ := hdescribes.accounts id hid
  obtain ⟨c, role, hmem, hnode, hcode⟩ := haccounts.exists_entry
  rw [harena, Arena.commandAt_of_some hn, Command.isSentinel_iff]
  constructor
  · intro hpad
    have hsentinel : c.isSentinel = true := Command.isSentinel_iff.2 (hcode.symm.trans hpad)
    obtain ⟨scope, rfl⟩ := exists_delimiter_of_mem_ledger hmem hsentinel hnode
    exact ⟨c, scope, hmem, hsentinel⟩
  · rintro ⟨d, scope, hdelimiter, hsentinel⟩
    -- A node is made for one command only.
    have hsame : (d, Role.delimiter n.id scope) = (c, role) :=
      Ledger.eq_of_node? hdescribes hdelimiter hmem rfl hnode
    cases hsame
    exact hcode.trans (Command.isSentinel_iff.1 hsentinel)

/-- The nodes of a page with the code of padding are those of delimiters with that code. Where no
scope that the page opens has such a delimiter, a walk meets no node with the code of padding and
the root is the only one that there is. -/
theorem sentinel_node_iff
    (h : (parsePageWithin room db matching diagnostics log page).outcome = .ok tree) :
    (∀ id ∈ tree.walk.map Prod.fst, (tree.arena.commandAt id).isSentinel = true ↔
        ∃ c scope, (c, Role.delimiter id scope) ∈ pageLedger db matching page ∧
          c.isSentinel = true) ∧
      ((∀ c ∈ page, ∀ kind, db.kind? c.code = some (.scope kind) → kind.dividesAtPadding = false) →
        (∀ id ∈ tree.walk.map Prod.fst, (tree.arena.commandAt id).code ≠ Command.paddingCode) ∧
          ∀ id n, tree.arena.nodes[id]? = some n → n.command.code = Command.paddingCode →
            id = tree.root) := by
  refine ⟨fun id hid => isSentinel_commandAt_iff h hid, fun hspared => ?_⟩
  have hwalked : ∀ id ∈ tree.walk.map Prod.fst,
      (tree.arena.commandAt id).code ≠ Command.paddingCode := by
    intro id hid hpad
    obtain ⟨c, scope, hmem, hsentinel⟩ :=
      (isSentinel_commandAt_iff h hid).1 (Command.isSentinel_iff.2 hpad)
    obtain ⟨opener, hopener, kind, hkind, hbranch⟩ := exists_opener_of_delimiter hmem
    have hdivides := ScopeKind.dividesAtPadding_of_findBranch? hsentinel hbranch
    rw [hspared opener hopener kind hkind] at hdivides
    cases hdivides
  refine ⟨hwalked, fun id n hn hpad => ?_⟩
  obtain ⟨harena, hroot, hwalk⟩ := arena_eq_of_parsePageWithin h
  have hlt : id < tree.arena.size := (Array.getElem?_eq_some_iff.1 hn).1
  by_cases heq : id = tree.root
  · exact heq
  · have hid : id ∈ tree.walk.map Prod.fst := by
      rw [hwalk, (books_pageEnd db matching page).describes.nodes, List.mem_range'_1, ← harena]
      omega
    refine absurd ?_ (hwalked id hid)
    rw [Arena.commandAt_of_some hn]
    exact hpad

/-- In the sample no arm starts at padding, and no node has the code of padding. -/
theorem sentinel_node_sample :
    (parsePageWithin 1 .sample .code (.empty true) #[] Forest.sample.flatten).outcome =
        .ok Forest.sample.tree ∧
      (∀ c ∈ Forest.sample.flatten, ∀ kind, Database.sample.kind? c.code = some (.scope kind) →
        kind.dividesAtPadding = false) ∧
      ∀ id ∈ Forest.sample.tree.walk.map Prod.fst,
        (Forest.sample.tree.arena.commandAt id).code ≠ Command.paddingCode := by
  have h : (parsePageWithin 1 .sample .code (.empty true) #[] Forest.sample.flatten).outcome =
      .ok Forest.sample.tree := rfl
  have hspared : ∀ c ∈ Forest.sample.flatten, ∀ kind,
      Database.sample.kind? c.code = some (.scope kind) → kind.dividesAtPadding = false := by
    intro c _ kind hkind
    rw [Database.kind?_sample] at hkind
    by_cases hcode : c.code = 1
    · rw [if_pos hcode] at hkind
      cases hkind
      rfl
    · grind
  exact ⟨h, hspared, ((sentinel_node_iff h).2 hspared).1⟩

/-- Data for one command that opens a scope, in which padding starts an arm. -/
def paddedArmData : Value :=
  .dict [(.int 1, .dict [
    (.str "name", .str "Scope"),
    (.str "kind", .dict [
      (.str "type", .str "Branch"),
      (.str "branches", .list [.dict [(.str "name", .str "Arm"), (.str "code", .int 0),
        (.str "condition", .dict [(.str "parameter", .int 0)])]]),
      (.str "terminator", .dict [(.str "code", .int 2), (.str "name", .str "End")])])])]

/-- Descriptors can be loaded with which a walk meets a node that has the code of padding. -/
theorem exists_sentinel_node :
    ∃ set tree, CommandSet.load paddedArmData "data" = .ok set ∧
      (parsePage ⟨.xp, .empty, set⟩ .code (.empty true) #[]
          [⟨1, [], .int 0, by decide⟩, .sentinel, ⟨2, [], .int 0, by decide⟩]).outcome = .ok tree ∧
      2 ∈ tree.walk.map Prod.fst ∧ (tree.arena.commandAt 2).isSentinel = true := by
  refine ⟨_, _, rfl, rfl, ?_, rfl⟩
  decide

end PageOutline
