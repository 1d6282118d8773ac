import PageOutline.Proofs.Sweep.Roles

/-!
# The books of a sweep

At every point of a sweep its ledger accounts for the arena that the sweep has built so far, and the
scopes and the absorber that are open at that point are found in the ledger. This holds whether or
not the page goes on to close its scopes. One lemma says what each step keeps; a run keeps it by
induction.
-/

namespace PageOutline

namespace Ledger

variable {db : Database} {matching : Matching} {ledger taken : Ledger} {c : Command} {role : Role}
  {id : Nat} {n : Node}

/-- What a role asks for of the rest of the ledger, in a page that may leave scopes open. -/
def Grounds (db : Database) (matching : Matching) (ledger : Ledger) : Command × Role → Prop
  | (c, .leaf _) => ∀ kind, db.kind? c.code ≠ some (.scope kind)
  | (c, .opener _) => ∃ kind, db.kind? c.code = some (.scope kind)
  | (c, .delimiter _ scope) => Divides db matching ledger scope c
  | (entry, .companion node) => ∃ c continuation, (c, Role.leaf node) ∈ ledger ∧
    db.kind? c.code = some (.route continuation) ∧ continuation.holds entry.code = true
  | (line, .merged node) => ∃ c continuation, (c, Role.leaf node) ∈ ledger ∧
    db.kind? c.code = some (.text continuation) ∧ continuation.holds line.code = true ∧
    (c.text?.isSome = true ∧ line.text?.isSome = true)
  | (line, .dropped node) => ∃ c continuation, (c, Role.leaf node) ∈ ledger ∧
    db.kind? c.code = some (.text continuation) ∧ continuation.holds line.code = true ∧
    ¬(c.text?.isSome = true ∧ line.text?.isSome = true)
  | (t, .terminator scope) => ∃ c kind, (c, Role.opener scope) ∈ ledger ∧
    db.kind? c.code = some (.scope kind) ∧ kind.terminator.code.holds t.code = true
  | (c, .padding) => c.isSentinel = true

/-- Grounds that are found in a ledger are found in any that goes on from it. -/
theorem Grounds.append {e : Command × Role} (h : ledger.Grounds db matching e) (more : Ledger) :
    Grounds db matching (ledger ++ more) e := by
  obtain ⟨c, role⟩ := e
  cases role with
  | leaf node => exact h
  | opener node => exact h
  | padding => exact h
  | delimiter node scope =>
    obtain ⟨opener, kind, hmem, hreason⟩ := h
    exact ⟨opener, kind, List.mem_append_left _ hmem, hreason⟩
  | companion node | merged node | dropped node | terminator scope =>
    obtain ⟨d, place, hmem, hreason⟩ := h
    exact ⟨d, place, List.mem_append_left _ hmem, hreason⟩

/-- A node's children have no part in what it stands for. -/
theorem Records.addChildren (h : Records db c role taken n) (ids : List Nat) :
    Records db c role taken (n.addChildren ids) :=
  ⟨h.node, h.taker, h.companions, h.entries, h.lines, h.command, h.code, h.indent,
    h.parameterCount, h.parameters, h.changed⟩

/-- What a node stands for does not depend on its children. -/
theorem Accounts.addChildren (h : Accounts db ledger n) (ids : List Nat) :
    Accounts db ledger (n.addChildren ids) := by
  obtain ⟨before, c, role, taken, after, hledger, hrecords, hnone⟩ := h
  exact ⟨before, c, role, taken, after, hledger, hrecords.addChildren ids, hnone⟩

/-- A command that a node does not take in may follow. -/
theorem Accounts.concat (h : Accounts db ledger n) {e : Command × Role}
    (he : e.2.taker? ≠ some n.id) : Accounts db (ledger ++ [e]) n := by
  obtain ⟨before, c, role, taken, after, rfl, hrecords, hnone⟩ := h
  refine ⟨before, c, role, taken, after ++ [e], by simp, hrecords, ?_⟩
  rw [← List.append_assoc]
  exact List.forall_mem_append.2 ⟨hnone, by simpa using he⟩

/-- A route takes one more entry in. -/
theorem Records.companion (h : Records db c (.leaf id) taken n) {entry : Command}
    {continuation : CodeSlot} (hkind : db.kind? c.code = some (.route continuation))
    (hholds : continuation.holds entry.code = true) :
    Records db c (.leaf id) (taken ++ [(entry, .companion id)])
      { n with companions := n.companions ++ #[entry] } := by
  have hid : n.id = id := (Option.some.inj h.node).symm
  refine ⟨h.node, ?taker, ?companions, ?entries, ?lines, ?command, h.code, h.indent,
    h.parameterCount, h.parameters, ?changed⟩
  case taker => exact List.forall_mem_append.2 ⟨h.taker, by simp [Role.taker?, hid]⟩
  case companions => simp [h.companions, hid]
  case entries =>
    refine List.forall_mem_append.2 ⟨h.entries, ?_⟩
    intro e he _
    cases List.mem_singleton.1 he
    exact ⟨continuation, hkind, hholds⟩
  case lines =>
    refine List.forall_mem_append.2 ⟨h.lines, ?_⟩
    intro e he hne
    cases List.mem_singleton.1 he
    exact absurd (by rw [hid]) hne
  case command => simpa using h.command
  case changed =>
    intro hne
    obtain ⟨e, he, hrole⟩ := h.changed hne
    exact ⟨e, List.mem_append_left _ he, hrole⟩

/-- A text takes one more line in, which is merged if it can be joined and dropped otherwise. -/
theorem Records.ofLine (h : Records db c (.leaf id) taken n) {line : Command}
    {continuation : CodeSlot} (hkind : db.kind? c.code = some (.text continuation))
    (hholds : continuation.holds line.code = true) :
    Records db c (.leaf id) (taken ++ [(line, .ofLine id n.command line)])
      { n with command := (n.command.joinLine? line).getD n.command } := by
  have hid : n.id = id := (Option.some.inj h.node).symm
  have hjoins := n.command.isSome_joinLine? line
  have htaker : ∀ e ∈ taken ++ [(line, Role.ofLine id n.command line)], e.2.taker? = some n.id :=
    List.forall_mem_append.2 ⟨h.taker, by simp [hid]⟩
  have hlines : ∀ e ∈ taken ++ [(line, Role.ofLine id n.command line)],
      e.2 ≠ .companion n.id → ∃ continuation, db.kind? c.code = some (.text continuation) ∧
        continuation.holds e.1.code = true := by
    refine List.forall_mem_append.2 ⟨h.lines, ?_⟩
    intro e he _
    cases List.mem_singleton.1 he
    exact ⟨continuation, hkind, hholds⟩
  have hentries : ∀ e ∈ taken ++ [(line, Role.ofLine id n.command line)],
      e.2 = .companion n.id → ∃ continuation, db.kind? c.code = some (.route continuation) ∧
        continuation.holds e.1.code = true := by
    refine List.forall_mem_append.2 ⟨h.entries, ?_⟩
    intro e he hrole
    cases List.mem_singleton.1 he
    unfold Role.ofLine at hrole
    split at hrole <;> cases hrole
  cases hjoin : n.command.joinLine? line with
  | none =>
    have hdropped : Role.ofLine id n.command line = .dropped id :=
      if_neg (by simp [← hjoins, hjoin])
    rw [hdropped] at htaker hlines hentries ⊢
    refine ⟨h.node, htaker, ?_, hentries, hlines, ?_, h.code, h.indent, h.parameterCount,
      h.parameters, fun hne => ?_⟩
    · simpa using h.companions
    · simpa using h.command
    · obtain ⟨e, he, hrole⟩ := h.changed hne
      exact ⟨e, List.mem_append_left _ he, hrole⟩
  | some joined =>
    have hmerged : Role.ofLine id n.command line = .merged id :=
      if_pos (by simp [← hjoins, hjoin])
    rw [hmerged] at htaker hlines hentries ⊢
    have hcommand : joined = c.joined
        (((taken ++ [(line, Role.merged id)]).filter (·.2 == .merged n.id)).map Prod.fst) := by
      rw [h.command] at hjoin
      simpa [hid] using (Command.joined_concat_of_some hjoin).symm
    refine ⟨h.node, htaker, ?_, hentries, hlines, hcommand, ?_, ?_, ?_, ?_, fun _ => ?_⟩
    · simpa using h.companions
    · exact (congrArg Command.code hcommand).trans (Command.code_joined c _)
    · exact (congrArg Command.indent hcommand).trans (Command.indent_joined c _)
    · exact (congrArg (·.parameters.length) hcommand).trans (Command.length_parameters_joined c _)
    · exact (congrArg (·.parameters.tail) hcommand).trans (Command.tail_parameters_joined c _)
    · exact ⟨_, List.mem_append_right _ (List.mem_singleton.2 rfl), by rw [hid]⟩

/-- How a ledger describes an arena: the commands with nodes stand in it in the order of their
nodes, and each node stands for its command and for what the command took in. -/
structure Describes (db : Database) (arena : Arena) (ledger : Ledger) : Prop where
  pos : 0 < arena.size
  nodes : ledger.nodes = List.range' 1 (arena.size - 1)
  ids : ledger.AllIds (· < arena.size)
  accounts : ∀ id ∈ ledger.nodes,
    ∃ n, arena.nodes[id]? = some n ∧ n.id = id ∧ ledger.Accounts db n

section Describes

variable {arena : Arena}

/-- A command that is not about a new node and that no node takes in leaves the arena as it is. -/
theorem Describes.concat (h : ledger.Describes db arena) (hnode : role.node? = none)
    (htaker : role.taker? = none) (hids : ∀ id ∈ role.id?, id < arena.size) :
    Describes db arena (ledger ++ [(c, role)]) := by
  have hnodes : Ledger.nodes (ledger ++ [(c, role)]) = ledger.nodes := by simp [hnode]
  refine ⟨h.pos, hnodes.trans h.nodes, h.ids.append ?_, ?_⟩
  · intro e he id hid
    cases List.mem_singleton.1 he
    exact hids id hid
  · rw [hnodes]
    intro id hid
    obtain ⟨n, hn, hnid, haccounts⟩ := h.accounts id hid
    exact ⟨n, hn, hnid, haccounts.concat (by simp [htaker])⟩

/-- A command with a node of its own. -/
theorem Describes.extend (h : ledger.Describes db arena) (hrole : role.node? = some arena.size)
    (parent : Nat) (c : Command) :
    Describes db (arena.extend parent c) (ledger ++ [(c, role)]) := by
  have htaker : role.taker? = none := by
    cases role <;> first | rfl | cases hrole
  have hsize : (arena.extend parent c).size = arena.size + 1 := Arena.size_extend ..
  have hnodes : Ledger.nodes (ledger ++ [(c, role)]) = List.range' 1 (arena.size - 1 + 1) := by
    have hlast : 1 + (arena.size - 1) = arena.size := by
      have hpos := h.pos
      omega
    rw [nodes_append, h.nodes, List.range'_concat, nodes_cons, hrole, Nat.one_mul, hlast]
    rfl
  have hpos := h.pos
  refine ⟨by omega, ?_, ?_, ?_⟩
  · rw [hnodes, hsize]
    congr 1
    omega
  · refine (h.ids.imp fun id hid => ?_).append (.cons (Role.id?_of_node? hrole) ?_ allIds_nil)
    · omega
    · omega
  · rw [nodes_append]
    refine List.forall_mem_append.2 ⟨fun id hid => ?_, fun id hid => ?_⟩
    · obtain ⟨n, hn, hnid, haccounts⟩ := h.accounts id hid
      have hlt : id < arena.size := (Array.getElem?_eq_some_iff.1 hn).1
      refine ⟨_, by rw [Arena.getElem?_extend_of_lt hlt, hn]; rfl, ?_⟩
      split
      · exact ⟨hnid, (haccounts.addChildren _).concat (by simp [htaker])⟩
      · exact ⟨hnid, haccounts.concat (by simp [htaker])⟩
    · have hid' : id = arena.size := by simpa [hrole] using hid
      rw [hid']
      refine ⟨_, Arena.getElem?_extend_size .., rfl, ledger, c, role, [], [], by simp, ?_, ?_⟩
      · exact .self db c hrole _ _
      · rw [List.append_nil]
        exact h.ids.taker?_ne (Nat.lt_irrefl _)

/-- The node of an absorber is the last one in a ledger that was made for a command of its kind, and
it has taken in all that follows. -/
def Pending (db : Database) (arena : Arena) (ledger : Ledger) (a : Absorber) : Prop :=
  ∃ (before : Ledger) (d : Command) (taken : Ledger) (n : Node),
    ledger = before ++ (d, .leaf a.node) :: taken ∧ arena.nodes[a.node]? = some n ∧
      db.kind? d.code = some a.kind ∧ Records db d (.leaf a.node) taken n ∧
      ∀ e ∈ before, e.2.taker? ≠ some a.node

/-- A pending absorber has its command in the ledger. -/
theorem Pending.mem {a : Absorber} (h : ledger.Pending db arena a) :
    ∃ d, (d, Role.leaf a.node) ∈ ledger ∧ db.kind? d.code = some a.kind := by
  obtain ⟨before, d, taken, n, rfl, -, hkind, -⟩ := h
  exact ⟨d, by simp, hkind⟩

/-- A leaf that was just made may take commands in. -/
theorem Describes.pending (h : ledger.Describes db arena) {a : Absorber}
    (hnode : a.node = arena.size) (hkind : db.kind? c.code = some a.kind) (parent : Nat) :
    Pending db (arena.extend parent c) (ledger ++ [(c, .leaf arena.size)]) a := by
  refine ⟨ledger, c, [], _, by rw [hnode], ?_, hkind, .self db c rfl (some parent) #[], ?_⟩
  · rw [hnode]
    exact Arena.getElem?_extend_size ..
  · rw [hnode]
    exact h.ids.taker?_ne (Nat.lt_irrefl _)

/-- A command that the node of the absorber takes in. -/
theorem Describes.take (h : ledger.Describes db arena) {a : Absorber}
    (hpending : ledger.Pending db arena a) (hnode : role.node? = none)
    (htaker : role.taker? = some a.node) {f : Node → Node} (hf : ∀ n, (f n).id = n.id)
    (hrecords : ∀ d taken n, db.kind? d.code = some a.kind → arena.nodes[a.node]? = some n →
      Records db d (.leaf a.node) taken n →
      Records db d (.leaf a.node) (taken ++ [(c, role)]) (f n)) :
    Describes db (arena.amend a.node f) (ledger ++ [(c, role)]) ∧
      Pending db (arena.amend a.node f) (ledger ++ [(c, role)]) a := by
  obtain ⟨before, d, taken, n, hledger, hn, hkind, hrecord, hbefore⟩ := hpending
  have hlt : a.node < arena.size := (Array.getElem?_eq_some_iff.1 hn).1
  have hsize : (arena.amend a.node f).size = arena.size := Arena.size_amend ..
  have hnodes : Ledger.nodes (ledger ++ [(c, role)]) = ledger.nodes := by simp [hnode]
  have hid : n.id = a.node := (Option.some.inj hrecord.node).symm
  have hrecord' := hrecords d taken n hkind hn hrecord
  have hwhole : ledger ++ [(c, role)] = before ++ (d, .leaf a.node) :: (taken ++ [(c, role)]) := by
    simp [hledger]
  have hn' : (arena.amend a.node f).nodes[a.node]? = some (f n) := by
    rw [Arena.getElem?_amend, if_pos rfl, hn]
    rfl
  refine ⟨⟨?_, ?_, ?_, ?_⟩, before, d, taken ++ [(c, role)], f n, hwhole, hn', hkind, hrecord',
    hbefore⟩
  · rw [hsize]
    exact h.pos
  · rw [hnodes, hsize]
    exact h.nodes
  · rw [hsize]
    exact h.ids.append (.cons (Role.id?_of_taker? htaker) hlt allIds_nil)
  · rw [hnodes]
    intro id hmem
    by_cases hsame : a.node = id
    · subst hsame
      refine ⟨f n, hn', (hf n).trans hid, before, d, .leaf a.node, taken ++ [(c, role)], [], ?_,
        hrecord', ?_⟩
      · rw [hwhole, List.append_nil]
      · rw [List.append_nil, hf, hid]
        exact hbefore
    · obtain ⟨m, hm, hmid, haccounts⟩ := h.accounts id hmem
      refine ⟨m, by rw [Arena.getElem?_amend, if_neg hsame, hm], hmid, haccounts.concat ?_⟩
      rw [htaker, hmid]
      exact fun heq => hsame (Option.some.inj heq)

end Describes

/-- A scope is opened in a ledger, where its position says, and not closed. -/
def Opens (db : Database) (ledger : Ledger) (scope : Scope) : Prop :=
  ∃ (before : Ledger) (c : Command) (inner : Ledger),
    ledger = before ++ (c, .opener scope.node) :: inner ∧ scope.position = before.length ∧
      scope.opener = c.code ∧ db.kind? c.code = some (.scope scope.kind) ∧
      ∀ e ∈ ledger, e.2 ≠ .terminator scope.node

/-- A scope stays open until its terminator comes. -/
theorem Opens.concat {scope : Scope} (h : ledger.Opens db scope) {e : Command × Role}
    (he : e.2 ≠ .terminator scope.node) : Opens db (ledger ++ [e]) scope := by
  obtain ⟨before, c, inner, rfl, hposition, hopener, hkind, hnone⟩ := h
  refine ⟨before, c, inner ++ [e], by simp, hposition, hopener, hkind, ?_⟩
  exact List.forall_mem_append.2 ⟨hnone, by simpa using he⟩

/-- An open scope has its opening command in the ledger. -/
theorem Opens.mem {scope : Scope} (h : ledger.Opens db scope) :
    ∃ c, (c, Role.opener scope.node) ∈ ledger ∧ db.kind? c.code = some (.scope scope.kind) := by
  obtain ⟨before, c, inner, rfl, -, -, hkind, -⟩ := h
  exact ⟨c, by simp, hkind⟩

/-- An open scope was opened within the ledger. -/
theorem Opens.position_lt {scope : Scope} (h : ledger.Opens db scope) :
    scope.position < ledger.length := by
  obtain ⟨before, c, inner, rfl, hposition, -⟩ := h
  simp only [hposition, List.length_append, List.length_cons]
  omega

/-- The scopes within which other scopes are open were opened before these. -/
def Stacked (scopes : List Scope) : Prop :=
  scopes.Pairwise fun inner outer => outer.position < inner.position ∧ outer.node < inner.node

end Ledger

namespace Sweep

open Ledger

variable {db : Database} {matching : Matching} {s t : Sweep} {ledger : Ledger} {c : Command}
  {role : Role}

/-- What a ledger says of the point where a sweep stands. -/
structure Books (db : Database) (matching : Matching) (s : Sweep) (ledger : Ledger) : Prop where
  describes : ledger.Describes db s.arena
  position : s.position + 1 = ledger.length
  grounds : ∀ e ∈ ledger, ledger.Grounds db matching e
  absorber : ∀ a ∈ s.absorber?, ledger.Pending db s.arena a
  scopes : ∀ scope ∈ s.scopes, ledger.Opens db scope
  stacked : Stacked s.scopes

/-- The books are in order after a step when its own entry is. -/
theorem Books.concat (h : Books db matching s ledger) {arena : Arena} {scopes : List Scope}
    {absorber? : Option Absorber} {issues : List Diagnostic}
    (hdescribes : Describes db arena (ledger ++ [(c, role)]))
    (hgrounds : ledger.Grounds db matching (c, role) ∨
      Grounds db matching (ledger ++ [(c, role)]) (c, role))
    (habsorber : ∀ a ∈ absorber?, Pending db arena (ledger ++ [(c, role)]) a)
    (hscopes : ∀ scope ∈ scopes, Opens db (ledger ++ [(c, role)]) scope)
    (hstacked : Stacked scopes) :
    Books db matching (s.next arena scopes absorber? issues) (ledger ++ [(c, role)]) := by
  refine ⟨hdescribes, ?_, ?_, habsorber, hscopes, hstacked⟩
  · have hposition := h.position
    simp only [next, List.length_append, List.length_singleton]
    omega
  · refine List.forall_mem_append.2 ⟨fun e he => (h.grounds e he).append _, fun e he => ?_⟩
    cases List.mem_singleton.1 he
    exact hgrounds.elim (fun hfound => hfound.append _) id

/-- The scopes stay open while none of them is closed. -/
theorem Books.opens (h : Books db matching s ledger) (hrole : ∀ scope, role ≠ .terminator scope) :
    ∀ scope ∈ s.scopes, Opens db (ledger ++ [(c, role)]) scope :=
  fun scope hscope => (h.scopes scope hscope).concat (hrole scope.node)

/-- Lines that follow a text command. -/
theorem Books.line (h : Books db matching s ledger) {node : Nat} {continuation : CodeSlot}
    (habsorber : s.absorber? = some (.text node continuation))
    (hholds : continuation.holds c.code = true) {arena : Arena} {issues : List Diagnostic}
    (harena : arena = s.arena.amend node fun n =>
      { n with command := (n.command.joinLine? c).getD n.command }) :
    Books db matching (s.next arena s.scopes s.absorber? issues)
      (ledger ++ [(c, .ofLine node (s.arena.commandAt node) c)]) := by
  have hpending := h.absorber _ habsorber
  obtain ⟨before, d, taken, n, hledger, hn, hkind, hrecord, -⟩ := hpending
  have hcommand : s.arena.commandAt node = n.command := Arena.commandAt_of_some hn
  have hrole : ∀ scope, Role.ofLine node (s.arena.commandAt node) c ≠ .terminator scope := by
    intro scope
    unfold Role.ofLine
    split <;> exact fun heq => by cases heq
  obtain ⟨hdescribes, hpending'⟩ := h.describes.take (c := c) (h.absorber _ habsorber)
    (Role.node?_ofLine node (s.arena.commandAt node) c)
    (Role.taker?_ofLine node (s.arena.commandAt node) c)
    (f := fun n => { n with command := (n.command.joinLine? c).getD n.command })
    (fun _ => rfl) <| by
      intro d taken m hkind hm hrecord
      rw [show s.arena.commandAt node = m.command from Arena.commandAt_of_some hm]
      exact hrecord.ofLine hkind hholds
  subst harena
  refine h.concat hdescribes (Or.inl ?_) ?_ (h.opens hrole) h.stacked
  · have hmem : (d, Role.leaf node) ∈ ledger := by
      rw [hledger]
      exact List.mem_append_right _ List.mem_cons_self
    have htext : (s.arena.commandAt node).text?.isSome = d.text?.isSome := by
      rw [hcommand, hrecord.command, Command.isSome_text?_joined]
    unfold Role.ofLine
    rw [htext]
    split
    next hboth => exact ⟨d, continuation, hmem, hkind, hholds, Bool.and_eq_true_iff.1 hboth⟩
    next hnot =>
      exact ⟨d, continuation, hmem, hkind, hholds, fun hboth => hnot (Bool.and_eq_true_iff.2 hboth)⟩
  · rw [habsorber]
    rintro _ ⟨⟩
    exact hpending'

/-- Entries that follow a route. -/
theorem Books.entry (h : Books db matching s ledger) {node : Nat} {continuation : CodeSlot}
    (habsorber : s.absorber? = some (.route node continuation))
    (hholds : continuation.holds c.code = true) (issues : List Diagnostic) :
    Books db matching (s.next (s.arena.withCompanions node [c]) s.scopes s.absorber? issues)
      (ledger ++ [(c, .companion node)]) := by
  have hpending := h.absorber _ habsorber
  obtain ⟨d, hmem, hkind⟩ := hpending.mem
  have hnode : (Role.companion node).node? = none := rfl
  obtain ⟨hdescribes, hpending'⟩ := h.describes.take (c := c) hpending hnode rfl
    (f := fun n => { n with companions := n.companions ++ #[c] })
    (fun _ => rfl) fun d taken m hkind hm hrecord => hrecord.companion hkind hholds
  refine h.concat hdescribes (Or.inl ?_) ?_ (h.opens fun scope heq => by cases heq) h.stacked
  · exact ⟨d, continuation, hmem, hkind, hholds⟩
  · rw [habsorber]
    rintro _ ⟨⟩
    exact hpending'

/-- A command with a node that opens no scope. -/
theorem Books.leaf (h : Books db matching s ledger) {absorber? : Option Absorber}
    {issues : List Diagnostic} (hkind : ∀ kind, db.kind? c.code ≠ some (.scope kind))
    (habsorber : ∀ a ∈ absorber?, a.node = s.arena.size ∧ db.kind? c.code = some a.kind) :
    Books db matching (s.next (s.arena.extend s.parent c) s.scopes absorber? issues)
      (ledger ++ [(c, .leaf s.arena.size)]) := by
  refine h.concat (h.describes.extend rfl s.parent c) (Or.inl hkind) ?_
    (h.opens fun scope heq => by cases heq) h.stacked
  intro a ha
  exact h.describes.pending (habsorber a ha).1 (habsorber a ha).2 s.parent

/-- One step keeps the books in order. -/
theorem Step.books (hstep : Step db matching s c role t) (h : Books db matching s ledger) :
    Books db matching t (ledger ++ [(c, role)]) := by
  cases hstep with
  | @merged node continuation joined habsorber hholds hjoin =>
    have hrole : Role.ofLine node (s.arena.commandAt node) c = .merged node :=
      if_pos (by rw [← Command.isSome_joinLine?, hjoin]; rfl)
    rw [← hrole]
    obtain ⟨before, d, taken, n, -, hn, -⟩ := h.absorber _ habsorber
    refine h.line habsorber hholds (Arena.amend_congr hn ?_)
    have hcommand : s.arena.commandAt node = n.command := Arena.commandAt_of_some hn
    rw [hcommand] at hjoin
    simp [hjoin]
  | @dropped node continuation habsorber hholds hjoin =>
    have hrole : Role.ofLine node (s.arena.commandAt node) c = .dropped node :=
      if_neg (by rw [← Command.isSome_joinLine?, hjoin]; exact Bool.false_ne_true)
    rw [← hrole]
    obtain ⟨before, d, taken, n, -, hn, -⟩ := h.absorber _ habsorber
    refine h.line habsorber hholds (Arena.amend_id _ _ fun m hm => ?_).symm
    have hcommand := hjoin
    rw [Arena.commandAt_of_some hm] at hcommand
    simp [hcommand]
  | companion habsorber hholds => exact h.entry habsorber hholds []
  | @terminator scope outer hfree hscopes hterm =>
    have hopens := h.scopes scope (by rw [hscopes]; exact List.mem_cons_self)
    obtain ⟨opener, hmem, hkind⟩ := hopens.mem
    have hstacked := h.stacked
    rw [hscopes, Stacked, List.pairwise_cons] at hstacked
    refine h.concat (h.describes.concat rfl rfl ?_)
      (Or.inl ⟨opener, scope.kind, hmem, hkind, hterm⟩)
      (by simp) (fun other hother => ?_) hstacked.2
    · rintro _ ⟨⟩
      exact h.describes.ids _ hmem _ rfl
    · refine (h.scopes other (by rw [hscopes]; exact List.mem_cons_of_mem _ hother)).concat ?_
      intro heq
      have hlt := (hstacked.1 other hother).2
      rw [Role.terminator.inj heq] at hlt
      exact Nat.lt_irrefl _ hlt
  | @delimiter scope outer hfree hscopes hterm hbranch =>
    have hopens := h.scopes scope (by rw [hscopes]; exact List.mem_cons_self)
    obtain ⟨opener, hmem, hkind⟩ := hopens.mem
    have hstacked := h.stacked
    rw [hscopes] at hstacked
    have hrole : ∀ other, Role.delimiter s.arena.size scope.node ≠ .terminator other :=
      fun other heq => by cases heq
    have hopen := h.opens (c := c) hrole
    rw [hscopes] at hopen
    refine h.concat (h.describes.extend rfl scope.node c)
      (Or.inl ⟨opener, scope.kind, hmem, hkind, hbranch⟩) (by simp) ?_ ?_
    · obtain ⟨hinner, houter⟩ := List.forall_mem_cons.1 hopen
      exact List.forall_mem_cons.2 ⟨hinner, houter⟩
    · obtain ⟨hinner, houter⟩ := List.pairwise_cons.1 hstacked
      exact List.pairwise_cons.2 ⟨hinner, houter⟩
  | padding hfree hpasses hpad =>
    exact h.concat (h.describes.concat rfl rfl (by simp [Role.id?, Role.node?, Role.taker?]))
      (Or.inl hpad) (by simp) (h.opens fun scope heq => by cases heq) h.stacked
  | @opener kind hfree hpasses hpad hkind =>
    refine h.concat (h.describes.extend rfl s.parent c) (Or.inl ⟨kind, hkind⟩) (by simp) ?_ ?_
    · refine List.forall_mem_cons.2 ⟨⟨ledger, c, [], rfl, h.position, rfl, hkind, ?_⟩,
        h.opens fun scope heq => by cases heq⟩
      intro e he heq
      rcases List.mem_append.1 he with he | he
      · exact Nat.lt_irrefl _ (h.describes.ids e he s.arena.size (by rw [heq]; rfl))
      · cases List.mem_singleton.1 he
        cases heq
    · refine List.pairwise_cons.2 ⟨fun other hother => ?_, h.stacked⟩
      have hopens := h.scopes other hother
      obtain ⟨opener, hmem, -⟩ := hopens.mem
      have hposition := hopens.position_lt
      rw [← h.position] at hposition
      exact ⟨hposition, h.describes.ids _ hmem _ rfl⟩
  | text hfree hpasses hpad hkind =>
    refine h.leaf (by simp [hkind]) ?_
    rintro _ ⟨⟩
    exact ⟨rfl, hkind⟩
  | route hfree hpasses hpad hkind =>
    refine h.leaf (by simp [hkind]) ?_
    rintro _ ⟨⟩
    exact ⟨rfl, hkind⟩
  | leaf hfree hpasses hpad hkind =>
    exact h.leaf (fun kind hscope => hkind _ hscope) (by simp)

/-- A run keeps the books in order. -/
theorem Books.run (h : Books db matching s ledger) (cs : List Command) :
    Books db matching (s.run db matching cs) (ledger ++ s.ledger db matching cs) := by
  induction cs generalizing s ledger with
  | nil => simpa [Sweep.ledger] using h
  | cons c cs ih =>
    have hstep := ih ((step_spec db matching s c).books h)
    rwa [List.append_assoc] at hstep

/-- The books of a sweep that has not read anything are empty. -/
theorem books_start (db : Database) (matching : Matching) (diagnostics : Diagnostics)
    (log : Array LogRecord) : Books db matching (start diagnostics log) [] where
  describes := ⟨Nat.zero_lt_one, rfl, allIds_nil, by simp⟩
  position := rfl
  grounds := by simp
  absorber := by simp [start]
  scopes := by simp [start]
  stacked := List.Pairwise.nil

end Sweep

end PageOutline
