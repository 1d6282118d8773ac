import PageOutline.Proofs.Forest.Basic

/-!
# Ledgers

A ledger of a page says of each of its commands what the parser used it for. What a ledger says of a
node stays true when it is put between other ledgers that have nothing to do with that node.
-/

namespace PageOutline

/-- What a command of a page is used for. Nodes are given by their ids. -/
inductive Role where
  /-- The command of a node that opens no scope. -/
  | leaf (node : Nat)
  | opener (node : Nat)
  | delimiter (node scope : Nat)
  | companion (node : Nat)
  /-- A line that is joined to the text of a node. -/
  | merged (node : Nat)
  /-- A line that cannot be joined. -/
  | dropped (node : Nat)
  | terminator (scope : Nat)
  | padding
deriving DecidableEq

/-- What a command is used for, whichever node it is about. -/
inductive Use where
  | node
  | companion
  | merged
  | dropped
  | terminator
  | padding
deriving DecidableEq

namespace Role

/-- The use of a command, without the node. -/
def use : Role → Use
  | leaf _ => .node
  | opener _ => .node
  | delimiter _ _ => .node
  | companion _ => .companion
  | merged _ => .merged
  | dropped _ => .dropped
  | terminator _ => .terminator
  | padding => .padding

/-- The node that is made for a command. -/
def node? : Role → Option Nat
  | leaf node => some node
  | opener node => some node
  | delimiter node _ => some node
  | _ => none

/-- The node that takes a command in. -/
def taker? : Role → Option Nat
  | companion node => some node
  | merged node => some node
  | dropped node => some node
  | _ => none

/-- The node that a role is about. -/
def id? : Role → Option Nat
  | terminator scope => some scope
  | role => role.node? <|> role.taker?

/-- What a line is used for that follows a text command. -/
def ofLine (node : Nat) (opener line : Command) : Role :=
  if opener.text?.isSome && line.text?.isSome then merged node else dropped node

/-- A line is taken in by the node of the text command, whether it is merged or dropped. -/
@[simp] theorem taker?_ofLine (node : Nat) (opener line : Command) :
    (ofLine node opener line).taker? = some node := by
  unfold ofLine
  split <;> rfl

/-- No node is made for a line. -/
@[simp] theorem node?_ofLine (node : Nat) (opener line : Command) :
    (ofLine node opener line).node? = none := by
  unfold ofLine
  split <;> rfl

/-- A command for which a node is made is about that node. -/
theorem id?_of_node? {role : Role} {id : Nat} (h : role.node? = some id) : role.id? = some id := by
  cases role <;> first | exact h | cases h

/-- A command that a node takes in is about that node. -/
theorem id?_of_taker? {role : Role} {id : Nat} (h : role.taker? = some id) :
    role.id? = some id := by
  cases role <;> first | exact h | cases h

end Role

/-- The commands of a page with what they are used for. -/
abbrev Ledger := List (Command × Role)

namespace Ledger

/-- The nodes that are made for the commands of a ledger. -/
def nodes (ledger : Ledger) : List Nat := ledger.filterMap (·.2.node?)

/-- The number of commands with a use. -/
def count (use : Use) (ledger : Ledger) : Nat := ledger.countP (·.2.use == use)

/-- The indices of the dropped lines; the first command has the given index. -/
def droppedFrom : Int → Ledger → List Int
  | _, [] => []
  | position, (_, .dropped _) :: rest => position :: droppedFrom (position + 1) rest
  | position, _ :: rest => droppedFrom (position + 1) rest

/-- How a node stands for the command `c` together with the commands `taken` that it took in:
entries of a route are its companions, and lines of a text that are merged change the first
parameter. -/
structure Records (db : Database) (c : Command) (role : Role) (taken : Ledger) (n : Node) :
    Prop where
  node : role.node? = some n.id
  taker : ∀ e ∈ taken, e.2.taker? = some n.id
  companions : n.companions.toList = (taken.filter (·.2 == .companion n.id)).map Prod.fst
  entries : ∀ e ∈ taken, e.2 = .companion n.id →
    ∃ continuation, db.kind? c.code = some (.route continuation) ∧
      continuation.holds e.1.code = true
  lines : ∀ e ∈ taken, e.2 ≠ .companion n.id →
    ∃ continuation, db.kind? c.code = some (.text continuation) ∧
      continuation.holds e.1.code = true
  command : n.command = c.joined ((taken.filter (·.2 == .merged n.id)).map Prod.fst)
  code : n.command.code = c.code
  indent : n.command.indent = c.indent
  parameterCount : n.command.parameters.length = c.parameters.length
  parameters : n.command.parameters.tail = c.parameters.tail
  changed : n.command ≠ c → ∃ e ∈ taken, e.2 = .merged n.id

/-- A node stands for its command alone when that takes nothing in. -/
theorem Records.self (db : Database) (c : Command) {role : Role} {id : Nat}
    (hrole : role.node? = some id) (parent? : Option Nat) (children : Array Nat) :
    Records db c role [] ⟨id, c, parent?, children, #[]⟩ :=
  ⟨hrole, by simp, rfl, by simp, by simp, by simp, rfl, rfl, rfl, rfl, fun h => absurd rfl h⟩

/-- A node stands for one command of the ledger and for the commands that follow it directly, and
takes in no others. -/
def Accounts (db : Database) (ledger : Ledger) (n : Node) : Prop :=
  ∃ (before : Ledger) (c : Command) (role : Role) (taken after : Ledger),
    ledger = before ++ (c, role) :: (taken ++ after) ∧ Records db c role taken n ∧
      ∀ e ∈ before ++ after, e.2.taker? ≠ some n.id

/-- A scope that the command `c` opens is closed by one later command with the code of its
terminator. -/
def Closes (db : Database) (ledger : Ledger) (scope : Nat) (c : Command) : Prop :=
  ∃ (kind : ScopeKind) (before inner after : Ledger) (terminator : Command),
    db.kind? c.code = some (.scope kind) ∧
      kind.terminator.code.holds terminator.code = true ∧
      ledger = before ++ (c, .opener scope) :: (inner ++ (terminator, .terminator scope) :: after) ∧
      ∀ e ∈ before ++ (inner ++ after), e.2 ≠ .terminator scope

/-- A scope is opened in the ledger by a command that the command `c` is a delimiter for. -/
def Divides (db : Database) (matching : Matching) (ledger : Ledger) (scope : Nat) (c : Command) :
    Prop :=
  ∃ (opener : Command) (kind : ScopeKind), (opener, Role.opener scope) ∈ ledger ∧
    db.kind? opener.code = some (.scope kind) ∧ (kind.findBranch? matching c).isSome = true

/-- What an entry's role asks of the command and of the rest of the ledger. -/
def Justifies (db : Database) (matching : Matching) (ledger : Ledger) : Command × Role → Prop
  | (c, .leaf _) => ∀ kind, db.kind? c.code ≠ some (.scope kind)
  | (c, .opener scope) => Closes db ledger scope c
  | (c, .delimiter _ scope) => Divides db matching ledger scope c
  | (_, .companion node) => ∃ c, (c, Role.leaf node) ∈ ledger
  | (line, .merged node) => ∃ c, (c, Role.leaf node) ∈ ledger ∧
    (c.text?.isSome = true ∧ line.text?.isSome = true)
  | (line, .dropped node) => ∃ c, (c, Role.leaf node) ∈ ledger ∧
    ¬(c.text?.isSome = true ∧ line.text?.isSome = true)
  | (_, .terminator scope) => ∃ c, (c, Role.opener scope) ∈ ledger
  | (c, .padding) => c.isSentinel = true

variable {db : Database} {matching : Matching} {ledger before after : Ledger} {id : Nat}

/-- No node is made for no commands. -/
@[simp] theorem nodes_nil : nodes [] = [] := rfl

/-- The nodes of two ledgers in a row are those of the first and then those of the second. -/
@[simp] theorem nodes_append (ledger ledger' : Ledger) :
    nodes (ledger ++ ledger') = nodes ledger ++ nodes ledger' :=
  List.filterMap_append

/-- The nodes of a ledger are the one of its first command, if there is one, and those of the
others. -/
@[simp] theorem nodes_cons (c : Command) (role : Role) (ledger : Ledger) :
    nodes ((c, role) :: ledger) = role.node?.toList ++ nodes ledger := by
  cases h : role.node? <;> simp [nodes, h]

/-- Commands that are taken in have no nodes. -/
theorem nodes_map_eq_nil (role : Command → Role) (h : ∀ c, (role c).node? = none)
    (cs : List Command) : nodes (cs.map fun c => (c, role c)) = [] := by
  induction cs with
  | nil => rfl
  | cons c cs ih => simp [h, ih]

/-- Every command is that of a node or has one of the other uses. -/
theorem length_eq (ledger : Ledger) :
    ledger.length = ledger.nodes.length + ledger.count .companion + ledger.count .merged +
      ledger.count .dropped + ledger.count .terminator + ledger.count .padding := by
  induction ledger with
  | nil => rfl
  | cons e ledger ih =>
    obtain ⟨c, role⟩ := e
    cases role <;> simp [count, Role.node?, Role.use] at ih ⊢ <;> omega

/-- In the second of two ledgers in a row the indices go on from the end of the first. -/
theorem droppedFrom_append (position : Int) (ledger ledger' : Ledger) :
    droppedFrom position (ledger ++ ledger') =
      droppedFrom position ledger ++ droppedFrom (position + ledger.length) ledger' := by
  induction ledger generalizing position with
  | nil => simp [droppedFrom]
  | cons e ledger ih =>
    obtain ⟨c, role⟩ := e
    have hnext : position + 1 + (ledger.length : Int) =
        position + ((c, role) :: ledger).length := by
      simp only [List.length_cons]
      omega
    cases role <;> simp only [List.cons_append, droppedFrom, ih, hnext]

/-- Whether all nodes that a ledger speaks of satisfy a predicate. -/
def AllIds (p : Nat → Prop) (ledger : Ledger) : Prop := ∀ e ∈ ledger, ∀ id ∈ e.2.id?, p id

section AllIds

variable {p q : Nat → Prop} {c : Command} {role : Role}

/-- An empty ledger speaks of no node. -/
theorem allIds_nil : AllIds p [] := fun _ he => absurd he List.not_mem_nil

/-- A ledger with one more command speaks of one more node at most. -/
theorem AllIds.cons (hrole : role.id? = some id) (hid : p id) (h : AllIds p ledger) :
    AllIds p ((c, role) :: ledger) := by
  refine List.forall_mem_cons.2 ⟨fun id' hid' => ?_, h⟩
  rw [hrole] at hid'
  cases hid'
  exact hid

/-- A command that is about no node does not count. -/
theorem AllIds.cons_of_none (hrole : role.id? = none) (h : AllIds p ledger) :
    AllIds p ((c, role) :: ledger) := by
  refine List.forall_mem_cons.2 ⟨fun id hid => ?_, h⟩
  rw [hrole] at hid
  cases hid

/-- Two ledgers in a row speak of the nodes of either. -/
theorem AllIds.append (h : AllIds p before) (h' : AllIds p after) : AllIds p (before ++ after) :=
  List.forall_mem_append.2 ⟨h, h'⟩

/-- A weaker predicate holds of the nodes too. -/
theorem AllIds.imp (h : AllIds p ledger) (hpq : ∀ id, p id → q id) : AllIds q ledger :=
  fun e he id hid => hpq id (h e he id hid)

/-- A node that a ledger does not speak of takes none of its commands in. -/
theorem AllIds.taker?_ne (h : AllIds p ledger) (hid : ¬p id) :
    ∀ e ∈ ledger, e.2.taker? ≠ some id :=
  fun e he htaker => hid (h e he id (Role.id?_of_taker? htaker))

/-- Commands that a node takes in speak of that node alone. -/
theorem allIds_map {role : Command → Role} (hrole : ∀ c, (role c).taker? = some id) (hid : p id)
    (cs : List Command) : AllIds p (cs.map fun c => (c, role c)) := by
  induction cs with
  | nil => exact allIds_nil
  | cons c cs ih => exact .cons (Role.id?_of_taker? (hrole c)) hid ih

end AllIds

/-- One ledger is a part of another that has nothing else to do with the nodes in it. -/
def Within (part whole : Ledger) : Prop :=
  ∃ before after, whole = before ++ (part ++ after) ∧
    ∀ e ∈ part, ∀ id ∈ e.2.id?, AllIds (· ≠ id) (before ++ after)

/-- The commands of a part are among those of the whole ledger. -/
theorem Within.mem {part whole : Ledger} (h : part.Within whole) {e : Command × Role}
    (he : e ∈ part) : e ∈ whole := by
  obtain ⟨before, after, rfl, -⟩ := h
  exact List.mem_append_right _ (List.mem_append_left _ he)

/-- A node at the head of a ledger is accounted for if it takes in nothing further down. -/
theorem Accounts.head {c : Command} {role : Role} {taken : Ledger} {n : Node}
    (h : Records db c role taken n) (hafter : ∀ e ∈ after, e.2.taker? ≠ some n.id) :
    Accounts db ((c, role) :: (taken ++ after)) n :=
  ⟨[], c, role, taken, after, rfl, h, hafter⟩

/-- What a node stands for in a part of a ledger it stands for in the whole. -/
theorem Accounts.of_within {part whole : Ledger} {n : Node} (h : Accounts db part n)
    (hwithin : part.Within whole) : Accounts db whole n := by
  obtain ⟨before, after, rfl, hother⟩ := hwithin
  obtain ⟨l, c, role, taken, r, rfl, hrecords, hnone⟩ := h
  have hout := hother (c, role) (by simp) n.id (Role.id?_of_node? hrecords.node)
  refine ⟨before ++ l, c, role, taken, r ++ after, by simp, hrecords, ?_⟩
  intro e he htaker
  have hmem : e ∈ l ++ r ∨ e ∈ before ++ after := by grind
  rcases hmem with hmem | hmem
  · exact hnone e hmem htaker
  · exact hout e hmem n.id (Role.id?_of_taker? htaker) rfl

/-- A scope that is closed in a part of a ledger is closed by the same command of the whole. -/
theorem Closes.of_within {part whole : Ledger} {scope : Nat} {c : Command}
    (h : Closes db part scope c) (hwithin : part.Within whole) : Closes db whole scope c := by
  obtain ⟨before, after, rfl, hother⟩ := hwithin
  obtain ⟨kind, l, inner, r, terminator, hkind, hterm, rfl, hnone⟩ := h
  have hout := hother (c, .opener scope) (by simp) scope rfl
  refine ⟨kind, before ++ l, inner, r ++ after, terminator, hkind, hterm, by simp, ?_⟩
  intro e he hrole
  have hmem : e ∈ l ++ (inner ++ r) ∨ e ∈ before ++ after := by grind
  rcases hmem with hmem | hmem
  · exact hnone e hmem hrole
  · exact hout e hmem scope (by rw [hrole]; rfl) rfl

/-- A line after a text command is merged or dropped for the reason that its role asks for. -/
theorem Justifies.ofLine {c : Command} (hopener : (c, Role.leaf id) ∈ ledger) (line : Command) :
    Justifies db matching ledger (line, .ofLine id c line) := by
  unfold Role.ofLine
  split
  next htexts => exact ⟨c, hopener, Bool.and_eq_true_iff.1 htexts⟩
  next htexts => exact ⟨c, hopener, fun h => htexts (Bool.and_eq_true_iff.2 h)⟩

/-- A reason that is found in a part of a ledger is found in the whole. -/
theorem Justifies.of_within {part whole : Ledger} {e : Command × Role}
    (h : Justifies db matching part e) (hwithin : part.Within whole) :
    Justifies db matching whole e := by
  obtain ⟨c, role⟩ := e
  cases role with
  | leaf node => exact h
  | opener scope => exact Closes.of_within h hwithin
  | delimiter node scope =>
    obtain ⟨opener, kind, hmem, hreason⟩ := h
    exact ⟨opener, kind, hwithin.mem hmem, hreason⟩
  | companion node | terminator scope =>
    obtain ⟨d, hmem⟩ := h
    exact ⟨d, hwithin.mem hmem⟩
  | merged node | dropped node =>
    obtain ⟨d, hmem, htexts⟩ := h
    exact ⟨d, hwithin.mem hmem, htexts⟩
  | padding => exact h

end Ledger

end PageOutline
