import PageOutline.Proofs.Ledger
import PageOutline.Proofs.Forest.Layout
import PageOutline.Proofs.Forest.Parsing

/-!
# The ledger of a forest

Every command of a page that parses is used exactly once. The ledger of a forest is written down
along with the forest, and what is claimed of it is proved for each part of the page: the ids in a
part are its own, so what stands before and after it changes nothing.
-/

namespace PageOutline

/-- The indices of the lines that could not be joined to a text. -/
def malformedPositions (issues : List Diagnostic) : List Int :=
  (issues.filter (·.kind == .malformedText)).map (·.position)

/-- The malformed lines among two lists of issues are those of the first and then those of the
second. -/
@[simp] theorem malformedPositions_append (issues issues' : List Diagnostic) :
    malformedPositions (issues ++ issues') =
      malformedPositions issues ++ malformedPositions issues' := by
  simp [malformedPositions]

namespace Forest

variable {db : Database} {matching : Matching} {layer : Layer}

/-- The ledger of a forest under `parent` with its nodes numbered from `next` on. -/
def ledger : {layer : Layer} → (parent next : Nat) → Forest layer → Ledger
  | _, _, _, nil => []
  | _, parent, next, padding c rest => (c, .padding) :: rest.ledger parent next
  | _, parent, next, leaf c rest => (c, .leaf next) :: rest.ledger parent (next + 1)
  | _, parent, next, text c lines rest =>
    (c, .leaf next) ::
      (lines.map (fun line => (line, .ofLine next c line)) ++ rest.ledger parent (next + 1))
  | _, parent, next, route c entries rest =>
    (c, .leaf next) ::
      (entries.map (fun entry => (entry, .companion next)) ++ rest.ledger parent (next + 1))
  | _, parent, next, scope c body arms terminator rest =>
    (c, .opener next) :: (body.ledger next (next + 1) ++
      (arms.ledger next (next + 1 + body.count) ++ (terminator, .terminator next) ::
        rest.ledger parent (next + 1 + body.count + arms.count)))
  | _, parent, next, arm delimiter body rest =>
    (delimiter, .delimiter next parent) ::
      (body.ledger next (next + 1) ++ rest.ledger parent (next + 1 + body.count))

/-- The commands of a forest's ledger are those of the page that it is written as. -/
theorem map_fst_ledger (f : Forest layer) (parent next : Nat) :
    (f.ledger parent next).map Prod.fst = f.flatten := by
  induction f generalizing parent next with
  | nil => rfl
  | padding c rest ih | leaf c rest ih => simp [ledger, flatten, ih]
  | text c lines rest ih | route c entries rest ih =>
    simp [ledger, flatten, ih, Function.comp_def]
  | scope c body arms terminator rest ihBody ihArms ih =>
    simp [ledger, flatten, ihBody, ihArms, ih]
  | arm delimiter body rest ihBody ih => simp [ledger, flatten, ihBody, ih]

/-- A forest's ledger has one entry for each command. -/
theorem length_ledger (f : Forest layer) (parent next : Nat) :
    (f.ledger parent next).length = f.flatten.length := by
  rw [← map_fst_ledger f parent next, List.length_map]

/-- Nodes are made in the order of the page. -/
theorem nodes_ledger (f : Forest layer) (parent next : Nat) :
    (f.ledger parent next).nodes = List.range' next f.count := by
  induction f generalizing parent next with
  | nil => rfl
  | padding c rest ih => simp [ledger, count, ih, Role.node?]
  | leaf c rest ih => simp [ledger, count, ih, Role.node?, List.range'_succ]
  | text c lines rest ih =>
    have hlines := Ledger.nodes_map_eq_nil (.ofLine next c) (Role.node?_ofLine next c) lines
    simp [ledger, count, ih, hlines, Role.node?, List.range'_succ]
  | route c entries rest ih =>
    have hentries := Ledger.nodes_map_eq_nil (fun _ => .companion next) (fun _ => rfl) entries
    simp [ledger, count, ih, hentries, Role.node?, List.range'_succ]
  | scope c body arms terminator rest ihBody ihArms ih =>
    simp only [ledger, count, Ledger.nodes_cons, Ledger.nodes_append, ihBody, ihArms, ih,
      Role.node?, Option.toList, List.nil_append, List.singleton_append, List.range'_succ]
    rw [← List.append_assoc, List.range'_append_1, Nat.add_assoc (next + 1), List.range'_append_1]
  | arm delimiter body rest ihBody ih =>
    simp [ledger, count, ihBody, ih, Role.node?, List.range'_succ]

/-- The nodes that the ledger of a forest speaks of are its own. -/
theorem allIds_ledger (f : Forest layer) (parent next : Nat) :
    (f.ledger parent next).AllIds fun id => next ≤ id ∧ id < next + f.count := by
  induction f generalizing parent next with
  | nil => exact Ledger.allIds_nil
  | padding c rest ih => exact .cons_of_none rfl (ih parent next)
  | leaf c rest ih =>
    refine .cons rfl (by simp [count]) ((ih parent (next + 1)).imp fun id hid => ?_)
    rw [count]
    omega
  | text c lines rest ih =>
    refine .cons rfl (by simp [count]) (.append ?_ ((ih parent (next + 1)).imp fun id hid => ?_))
    · exact Ledger.allIds_map (Role.taker?_ofLine next c) (by simp [count]) lines
    · rw [count]
      omega
  | route c entries rest ih =>
    refine .cons rfl (by simp [count]) (.append ?_ ((ih parent (next + 1)).imp fun id hid => ?_))
    · exact Ledger.allIds_map (fun _ => rfl) (by simp [count]) entries
    · rw [count]
      omega
  | scope c body arms terminator rest ihBody ihArms ih =>
    rw [count]
    refine .cons rfl (by omega) (.append ((ihBody _ _).imp fun id hid => ?_)
      (.append ((ihArms _ _).imp fun id hid => ?_)
        (.cons rfl (by omega) ((ih _ _).imp fun id hid => ?_))))
    all_goals omega
  | arm delimiter body rest ihBody ih =>
    rw [count]
    refine .cons rfl (by omega) (.append ((ihBody _ _).imp fun id hid => ?_)
      ((ih _ _).imp fun id hid => ?_))
    all_goals omega

/-- The ledger of a forest is a part of any ledger that speaks of no other of its nodes. -/
theorem within_of_allIds (f : Forest layer) (parent next : Nat) {before after : Ledger}
    (hbefore : before.AllIds fun id => id < next ∨ next + f.count ≤ id)
    (hafter : after.AllIds fun id => id < next ∨ next + f.count ≤ id) :
    (f.ledger parent next).Within (before ++ (f.ledger parent next ++ after)) := by
  refine ⟨before, after, rfl, fun e he id hid => ?_⟩
  have hown := f.allIds_ledger parent next e he id hid
  exact (hbefore.append hafter).imp fun id' hout => by omega

section Parts

variable (c : Command) (parent next : Nat)

/-- Padding has no node, so what follows it is a part that shares none. -/
theorem within_padding (rest : Forest .body) :
    (rest.ledger parent next).Within ((padding c rest).ledger parent next) := by
  have hbefore : Ledger.AllIds (fun id => id < next ∨ next + rest.count ≤ id) [(c, .padding)] :=
    .cons_of_none rfl Ledger.allIds_nil
  simpa [ledger] using rest.within_of_allIds parent next hbefore Ledger.allIds_nil

/-- What follows a leaf has to do with later nodes only. -/
theorem within_leaf (rest : Forest .body) :
    (rest.ledger parent (next + 1)).Within ((leaf c rest).ledger parent next) := by
  have hbefore : Ledger.AllIds (fun id => id < next + 1 ∨ next + 1 + rest.count ≤ id)
      [(c, .leaf next)] := .cons rfl (by omega) Ledger.allIds_nil
  simpa [ledger] using rest.within_of_allIds parent (next + 1) hbefore Ledger.allIds_nil

/-- What follows a text command and its lines has to do with later nodes only. -/
theorem within_text (lines : List Command) (rest : Forest .body) :
    (rest.ledger parent (next + 1)).Within ((text c lines rest).ledger parent next) := by
  have hbefore : Ledger.AllIds (fun id => id < next + 1 ∨ next + 1 + rest.count ≤ id)
      ((c, .leaf next) :: lines.map fun line => (line, .ofLine next c line)) :=
    .cons rfl (by omega) (Ledger.allIds_map (Role.taker?_ofLine next c) (by omega) lines)
  simpa [ledger] using rest.within_of_allIds parent (next + 1) hbefore Ledger.allIds_nil

/-- What follows a route and its entries has to do with later nodes only. -/
theorem within_route (entries : List Command) (rest : Forest .body) :
    (rest.ledger parent (next + 1)).Within ((route c entries rest).ledger parent next) := by
  have hbefore : Ledger.AllIds (fun id => id < next + 1 ∨ next + 1 + rest.count ≤ id)
      ((c, .leaf next) :: entries.map fun entry => (entry, .companion next)) :=
    .cons rfl (by omega) (Ledger.allIds_map (fun _ => rfl) (by omega) entries)
  simpa [ledger] using rest.within_of_allIds parent (next + 1) hbefore Ledger.allIds_nil

variable (body : Forest .body) (arms : Forest .arms) (terminator : Command) (rest : Forest .body)

/-- Nothing else of a scope has to do with the nodes of its body. -/
theorem within_scope_body :
    (body.ledger next (next + 1)).Within
      ((scope c body arms terminator rest).ledger parent next) := by
  have hbefore : Ledger.AllIds (fun id => id < next + 1 ∨ next + 1 + body.count ≤ id)
      [(c, .opener next)] := .cons rfl (by omega) Ledger.allIds_nil
  have hafter : Ledger.AllIds (fun id => id < next + 1 ∨ next + 1 + body.count ≤ id)
      (arms.ledger next (next + 1 + body.count) ++ (terminator, .terminator next) ::
        rest.ledger parent (next + 1 + body.count + arms.count)) :=
    .append ((arms.allIds_ledger _ _).imp fun id hid => by omega)
      (.cons rfl (by omega) ((rest.allIds_ledger _ _).imp fun id hid => by omega))
  exact body.within_of_allIds next (next + 1) hbefore hafter

/-- Nothing else of a scope has to do with the nodes of its arms. -/
theorem within_scope_arms :
    (arms.ledger next (next + 1 + body.count)).Within
      ((scope c body arms terminator rest).ledger parent next) := by
  have hbefore : Ledger.AllIds
      (fun id => id < next + 1 + body.count ∨ next + 1 + body.count + arms.count ≤ id)
      ((c, .opener next) :: body.ledger next (next + 1)) :=
    .cons rfl (by omega) ((body.allIds_ledger _ _).imp fun id hid => by omega)
  have hafter : Ledger.AllIds
      (fun id => id < next + 1 + body.count ∨ next + 1 + body.count + arms.count ≤ id)
      ((terminator, .terminator next) ::
        rest.ledger parent (next + 1 + body.count + arms.count)) :=
    .cons rfl (by omega) ((rest.allIds_ledger _ _).imp fun id hid => by omega)
  exact arms.within_of_allIds next _ hbefore hafter

/-- What follows a scope has to do with later nodes only. -/
theorem within_scope_rest :
    (rest.ledger parent (next + 1 + body.count + arms.count)).Within
      ((scope c body arms terminator rest).ledger parent next) := by
  have hbefore : Ledger.AllIds (fun id => id < next + 1 + body.count + arms.count ∨
        next + 1 + body.count + arms.count + rest.count ≤ id)
      ((c, .opener next) :: (body.ledger next (next + 1) ++
        (arms.ledger next (next + 1 + body.count) ++ [(terminator, .terminator next)]))) :=
    .cons rfl (by omega) (.append ((body.allIds_ledger _ _).imp fun id hid => by omega)
      (.append ((arms.allIds_ledger _ _).imp fun id hid => by omega)
        (.cons rfl (by omega) Ledger.allIds_nil)))
  simpa [ledger] using rest.within_of_allIds parent _ hbefore Ledger.allIds_nil

/-- Nothing else of an arm has to do with the nodes of its body. -/
theorem within_arm_body (others : Forest .arms) :
    (body.ledger next (next + 1)).Within ((arm c body others).ledger parent next) := by
  have hbefore : Ledger.AllIds (fun id => id < next + 1 ∨ next + 1 + body.count ≤ id)
      [(c, .delimiter next parent)] := .cons rfl (by omega) Ledger.allIds_nil
  exact body.within_of_allIds next (next + 1) hbefore
    ((others.allIds_ledger _ _).imp fun id hid => by omega)

/-- The arms after one have to do with later nodes only. -/
theorem within_arm_rest (others : Forest .arms) :
    (others.ledger parent (next + 1 + body.count)).Within
      ((arm c body others).ledger parent next) := by
  have hbefore : Ledger.AllIds
      (fun id => id < next + 1 + body.count ∨ next + 1 + body.count + others.count ≤ id)
      ((c, .delimiter next parent) :: body.ledger next (next + 1)) :=
    .cons rfl (by omega) ((body.allIds_ledger _ _).imp fun id hid => by omega)
  simpa [ledger] using others.within_of_allIds parent _ hbefore Ledger.allIds_nil

end Parts

/-- A command without lines and entries is all that its node stands for. -/
theorem accounts_self (db : Database) (c : Command) {role : Role} {id : Nat} {after : Ledger}
    (hrole : role.node? = some id) (hafter : ∀ e ∈ after, e.2.taker? ≠ some id)
    (parent? : Option Nat) (children : Array Nat) :
    Ledger.Accounts db ((c, role) :: after) ⟨id, c, parent?, children, #[]⟩ :=
  ⟨[], c, role, [], after, rfl, .self db c hrole parent? children, hafter⟩

/-- The node of a text command stands for it with its lines: those with a text are merged into it,
and the others dropped. -/
theorem records_text {c : Command} {continuation : CodeSlot} {lines : List Command}
    (hkind : db.kind? c.code = some (.text continuation))
    (hlines : ∀ line ∈ lines, continuation.holds line.code = true) (id : Nat)
    (parent? : Option Nat) :
    Ledger.Records db c (.leaf id) (lines.map fun line => (line, .ofLine id c line))
      ⟨id, c.joined lines, parent?, #[], #[]⟩ := by
  have hnot : ∀ line, Role.ofLine id c line ≠ .companion id := by
    intro line
    unfold Role.ofLine
    split <;> simp
  refine ⟨rfl, ?taker, ?companions, ?entries, ?lines, ?command, Command.code_joined c lines,
    Command.indent_joined c lines, Command.length_parameters_joined c lines,
    Command.tail_parameters_joined c lines, ?changed⟩
  case taker => simp
  case companions => simp [List.filter_map, Function.comp_def, hnot]
  case entries =>
    intro e he hrole
    obtain ⟨line, -, rfl⟩ := List.mem_map.1 he
    exact absurd hrole (hnot line)
  case lines =>
    intro e he _
    obtain ⟨line, hline, rfl⟩ := List.mem_map.1 he
    exact ⟨continuation, hkind, hlines line hline⟩
  case command =>
    have hmerged : ((fun e : Command × Role => e.2 == .merged id) ∘
        fun line => (line, Role.ofLine id c line)) =
          fun line => c.text?.isSome && line.text?.isSome := by
      funext line
      dsimp only [Function.comp, Role.ofLine]
      cases c.text?.isSome && line.text?.isSome <;> simp
    rw [List.filter_map, List.map_map, hmerged]
    exact (congrArg c.joined (List.map_id _)).trans (c.joined_filter lines) |>.symm
  case changed =>
    intro hchanged
    rcases c.joined_eq_or lines with h | ⟨hopener, ⟨line, hline, htext⟩, -⟩
    · exact absurd h hchanged
    · exact ⟨_, List.mem_map_of_mem hline, by simp [Role.ofLine, hopener, htext]⟩

/-- The node of a route stands for it with its entries, which are its companions. -/
theorem records_route {c : Command} {continuation : CodeSlot} {entries : List Command}
    (hkind : db.kind? c.code = some (.route continuation))
    (hentries : ∀ entry ∈ entries, continuation.holds entry.code = true) (id : Nat)
    (parent? : Option Nat) :
    Ledger.Records db c (.leaf id) (entries.map fun entry => (entry, .companion id))
      ⟨id, c, parent?, #[], entries.toArray⟩ := by
  refine ⟨rfl, by simp [Role.taker?], ?companions, ?entries, ?lines, ?command, rfl, rfl, rfl, rfl,
    fun h => absurd rfl h⟩
  case companions =>
    rw [List.filter_eq_self.2 (by simp), List.map_map]
    exact (List.map_id entries).symm
  case command =>
    rw [List.filter_eq_nil_iff.2 (by simp)]
    exact (Command.joined_nil c).symm
  case entries =>
    intro e he _
    obtain ⟨entry, hentry, rfl⟩ := List.mem_map.1 he
    exact ⟨continuation, hkind, hentries entry hentry⟩
  case lines =>
    intro e he hrole
    obtain ⟨entry, -, rfl⟩ := List.mem_map.1 he
    exact absurd rfl hrole

/-- No entry of a forest's ledger is taken in by a node with a lower number than the forest's
own. -/
theorem taker?_ne_of_lt (f : Forest layer) (parent : Nat) {next id : Nat} (h : id < next) :
    ∀ e ∈ f.ledger parent next, e.2.taker? ≠ some id :=
  (f.allIds_ledger parent next).taker?_ne (by omega)

/-- The ledger of a forest accounts for each of its nodes. -/
theorem accounts_ledger {f : Forest layer} {around? : Option ScopeKind} {after : Option Command}
    (hfits : f.Fits db matching around? after) (parent next : Nat) :
    ∀ n ∈ f.nodes parent next, (f.ledger parent next).Accounts db n := by
  induction f generalizing parent next around? after with
  | nil => simp [nodes]
  | padding c rest ih =>
    exact fun n hn => (ih hfits.2.2 parent next n hn).of_within (within_padding ..)
  | leaf c rest ih =>
    refine List.forall_mem_cons.2 ⟨accounts_self db c rfl (taker?_ne_of_lt _ _ (by omega)) _ _, ?_⟩
    exact fun n hn => (ih hfits.2.2.2 parent _ n hn).of_within (within_leaf ..)
  | text c lines rest ih =>
    obtain ⟨-, -, ⟨continuation, hkind, hlines, -⟩, hrest⟩ := hfits
    have hown := Ledger.Accounts.head (records_text hkind hlines next (some parent))
      (rest.taker?_ne_of_lt parent (Nat.lt_succ_self next))
    refine List.forall_mem_cons.2 ⟨hown, ?_⟩
    exact fun n hn => (ih hrest parent _ n hn).of_within (within_text ..)
  | route c entries rest ih =>
    obtain ⟨-, -, ⟨continuation, hkind, hentries, -⟩, hrest⟩ := hfits
    have hown := Ledger.Accounts.head (records_route hkind hentries next (some parent))
      (rest.taker?_ne_of_lt parent (Nat.lt_succ_self next))
    refine List.forall_mem_cons.2 ⟨hown, ?_⟩
    exact fun n hn => (ih hrest parent _ n hn).of_within (within_route ..)
  | scope c body arms terminator rest ihBody ihArms ih =>
    obtain ⟨-, -, ⟨kind, hkind, hbody, harms, hterm⟩, hrest⟩ := hfits
    rw [nodes, List.forall_mem_cons, List.forall_mem_append, List.forall_mem_append]
    refine ⟨accounts_self db c rfl ?_ _ _, ?_, ?_, ?_⟩
    · refine List.forall_mem_append.2 ⟨taker?_ne_of_lt _ _ (by omega), ?_⟩
      refine List.forall_mem_append.2 ⟨taker?_ne_of_lt _ _ (by omega), ?_⟩
      exact List.forall_mem_cons.2 ⟨(Option.some_ne_none _).symm, taker?_ne_of_lt _ _ (by omega)⟩
    · exact fun n hn => (ihBody hbody next _ n hn).of_within (within_scope_body ..)
    · exact fun n hn => (ihArms harms next _ n hn).of_within (within_scope_arms ..)
    · exact fun n hn => (ih hrest parent _ n hn).of_within (within_scope_rest ..)
  | arm delimiter body rest ihBody ih =>
    obtain ⟨-, hbody, hrest⟩ := hfits
    rw [nodes, List.forall_mem_cons, List.forall_mem_append]
    refine ⟨accounts_self db delimiter rfl ?_ _ _, ?_, ?_⟩
    · exact List.forall_mem_append.2
        ⟨taker?_ne_of_lt _ _ (by omega), taker?_ne_of_lt _ _ (by omega)⟩
    · exact fun n hn => (ihBody hbody next _ n hn).of_within (within_arm_body ..)
    · exact fun n hn => (ih hrest parent _ n hn).of_within (within_arm_rest ..)

/-- The opening command of a scope that fits is closed by the terminator of the scope. -/
theorem closes_scope {c terminator : Command} {body rest : Forest .body} {arms : Forest .arms}
    {kind : ScopeKind} (hkind : db.kind? c.code = some (.scope kind))
    (hterm : kind.terminator.code.holds terminator.code = true) (parent next : Nat) :
    ((scope c body arms terminator rest).ledger parent next).Closes db next c := by
  refine ⟨kind, [], body.ledger next (next + 1) ++ arms.ledger next (next + 1 + body.count),
    rest.ledger parent (next + 1 + body.count + arms.count), terminator, hkind, hterm,
    by simp [ledger], ?_⟩
  have hothers : Ledger.AllIds (next < ·)
      ([] ++ (body.ledger next (next + 1) ++ arms.ledger next (next + 1 + body.count) ++
        rest.ledger parent (next + 1 + body.count + arms.count))) :=
    .append Ledger.allIds_nil (.append (.append
      ((body.allIds_ledger _ _).imp fun id hid => by omega)
      ((arms.allIds_ledger _ _).imp fun id hid => by omega))
      ((rest.allIds_ledger _ _).imp fun id hid => by omega))
  intro e he hrole
  exact Nat.lt_irrefl _ (hothers e he next (by rw [hrole]; rfl))

/-- Whether an entry is a delimiter of the scope around a sequence of arms. -/
def Awaits (matching : Matching) (around? : Option ScopeKind) (parent : Nat) (layer : Layer)
    (e : Command × Role) : Prop :=
  layer = .arms ∧ ∃ (c : Command) (id : Nat) (kind : ScopeKind),
    e = (c, .delimiter id parent) ∧ around? = some kind ∧
      (kind.findBranch? matching c).isSome = true

/-- Only among arms does an entry wait for a scope around it; in a body every one is justified as it
stands. -/
theorem justifies_of_body {ledger : Ledger} {around? : Option ScopeKind} {parent : Nat}
    {e : Command × Role}
    (h : ledger.Justifies db matching e ∨ Awaits matching around? parent .body e) :
    ledger.Justifies db matching e :=
  h.resolve_right fun hawaits => by cases hawaits.1

/-- Every command has its role for a reason that is found in the ledger of the forest, delimiters of
the scope around it apart. -/
theorem justifies_ledger {f : Forest layer} {around? : Option ScopeKind} {after : Option Command}
    (hfits : f.Fits db matching around? after) (parent next : Nat) :
    ∀ e ∈ f.ledger parent next, (f.ledger parent next).Justifies db matching e ∨
      Awaits matching around? parent layer e := by
  induction f generalizing parent next around? after with
  | nil => simp [ledger]
  | padding c rest ih =>
    refine List.forall_mem_cons.2 ⟨Or.inl hfits.1, fun e he => Or.inl ?_⟩
    exact (justifies_of_body (ih hfits.2.2 parent next e he)).of_within (within_padding ..)
  | leaf c rest ih =>
    obtain ⟨-, -, hkind, hrest⟩ := hfits
    refine List.forall_mem_cons.2 ⟨Or.inl fun kind hscope => hkind _ hscope, fun e he => Or.inl ?_⟩
    exact (justifies_of_body (ih hrest parent _ e he)).of_within (within_leaf ..)
  | text c lines rest ih =>
    obtain ⟨-, -, ⟨continuation, hkind, -, -⟩, hrest⟩ := hfits
    refine List.forall_mem_cons.2 ⟨Or.inl fun kind hscope => ?_, List.forall_mem_append.2 ⟨?_, ?_⟩⟩
    · rw [hkind] at hscope
      cases hscope
    · intro e he
      obtain ⟨line, -, rfl⟩ := List.mem_map.1 he
      exact Or.inl (.ofLine List.mem_cons_self line)
    · exact fun e he =>
        Or.inl ((justifies_of_body (ih hrest parent _ e he)).of_within (within_text ..))
  | route c entries rest ih =>
    obtain ⟨-, -, ⟨continuation, hkind, -, -⟩, hrest⟩ := hfits
    refine List.forall_mem_cons.2 ⟨Or.inl fun kind hscope => ?_, List.forall_mem_append.2 ⟨?_, ?_⟩⟩
    · rw [hkind] at hscope
      cases hscope
    · intro e he
      obtain ⟨entry, -, rfl⟩ := List.mem_map.1 he
      exact Or.inl ⟨c, List.mem_cons_self⟩
    · exact fun e he =>
        Or.inl ((justifies_of_body (ih hrest parent _ e he)).of_within (within_route ..))
  | scope c body arms terminator rest ihBody ihArms ih =>
    obtain ⟨-, -, ⟨kind, hkind, hbody, harms, hterm⟩, hrest⟩ := hfits
    refine List.forall_mem_cons.2 ⟨Or.inl (closes_scope hkind hterm parent next),
      List.forall_mem_append.2 ⟨?_, List.forall_mem_append.2 ⟨?_, List.forall_mem_cons.2 ⟨?_, ?_⟩⟩⟩⟩
    · exact fun e he =>
        Or.inl ((justifies_of_body (ihBody hbody next _ e he)).of_within (within_scope_body ..))
    · intro e he
      rcases ihArms harms next _ e he with hjustified | ⟨-, d, id, kind', rfl, hkind', hbranch⟩
      · exact Or.inl (hjustified.of_within (within_scope_arms ..))
      · cases hkind'
        exact Or.inl ⟨c, kind, List.mem_cons_self, hkind, hbranch⟩
    · exact Or.inl ⟨c, List.mem_cons_self⟩
    · exact fun e he =>
        Or.inl ((justifies_of_body (ih hrest parent _ e he)).of_within (within_scope_rest ..))
  | arm delimiter body rest ihBody ih =>
    obtain ⟨⟨kind, hkind, -, hbranch⟩, hbody, hrest⟩ := hfits
    refine List.forall_mem_cons.2 ⟨Or.inr ⟨rfl, delimiter, next, kind, rfl, hkind, hbranch⟩,
      List.forall_mem_append.2 ⟨?_, ?_⟩⟩
    · exact fun e he =>
        Or.inl ((justifies_of_body (ihBody hbody next _ e he)).of_within (within_arm_body ..))
    · intro e he
      rcases ih hrest parent _ e he with hjustified | hawaits
      · exact Or.inl (hjustified.of_within (within_arm_rest ..))
      · exact Or.inr hawaits

/-- The lines that are dropped from a run are those that are reported as malformed. -/
theorem droppedFrom_lines (id : Nat) (c : Command) (position : Int) (lines : List Command) :
    Ledger.droppedFrom position (lines.map fun line => (line, .ofLine id c line)) =
      malformedPositions (malformedLines c position lines) := by
  induction lines generalizing position with
  | nil => rfl
  | cons line lines ih =>
    rw [List.map_cons, malformedLines, Role.ofLine]
    split
    · exact ih (position + 1)
    · exact congrArg (position :: ·) (ih (position + 1))

/-- No entry of a route is dropped. -/
theorem droppedFrom_entries (id : Nat) (position : Int) (entries : List Command) :
    Ledger.droppedFrom position (entries.map fun entry => (entry, .companion id)) = [] := by
  induction entries generalizing position with
  | nil => rfl
  | cons entry entries ih => exact ih (position + 1)

/-- The dropped lines are those that are issues. -/
theorem droppedFrom_ledger (f : Forest layer) (parent next : Nat) (position : Int) :
    (f.ledger parent next).droppedFrom position = malformedPositions (f.issues db position) := by
  induction f generalizing parent next position with
  | nil => rfl
  | padding c rest ih => exact ih parent next (position + 1)
  | leaf c rest ih =>
    have h := ih parent (next + 1) (position + 1)
    rw [issues]
    split <;> exact h
  | text c lines rest ih =>
    simp only [ledger, issues, Ledger.droppedFrom, Ledger.droppedFrom_append, droppedFrom_lines, ih,
      List.length_map, malformedPositions_append]
  | route c entries rest ih =>
    simp only [ledger, issues, Ledger.droppedFrom, Ledger.droppedFrom_append, droppedFrom_entries,
      ih, List.length_map, List.nil_append]
  | scope c body arms terminator rest ihBody ihArms ih =>
    simp only [ledger, issues, Ledger.droppedFrom, Ledger.droppedFrom_append, ihBody, ihArms, ih,
      length_ledger, malformedPositions_append]
  | arm delimiter body rest ihBody ih =>
    simp only [ledger, issues, Ledger.droppedFrom, Ledger.droppedFrom_append, ihBody, ih,
      length_ledger, malformedPositions_append]

end Forest

/-- How a ledger balances the commands of a page against the tree and the issues that they gave. -/
structure Ledger.Balances (db : Database) (matching : Matching) (page : List Command) (tree : Tree)
    (issues : List Diagnostic) (ledger : Ledger) : Prop where
  /-- Every command has one use. -/
  commands : ledger.map Prod.fst = page
  /-- A walk visits the nodes in the order in which they were made. -/
  walk : tree.walk.map Prod.fst = List.range' 1 tree.size
  /-- The commands with nodes stand in the page in the order of their nodes. -/
  nodes : ledger.nodes = List.range' 1 tree.size
  accounts : ∀ id ∈ ledger.nodes,
    ∃ n, tree.arena.nodes[id]? = some n ∧ n.id = id ∧ ledger.Accounts db n
  justifies : ∀ e ∈ ledger, ledger.Justifies db matching e
  /-- The dropped lines are those reported as malformed. -/
  dropped : ledger.droppedFrom 0 = malformedPositions issues
  length : page.length = tree.size + ledger.count .companion + ledger.count .merged +
    ledger.count .dropped + ledger.count .terminator + ledger.count .padding

/-- Every command of a page that parses is used exactly once: none is lost, none is used twice, and
their order is that of the tree. -/
theorem exists_ledger_of_parsePageWithin {db : Database} {matching : Matching} {room : Nat}
    {diagnostics : Diagnostics} {log : Array LogRecord} {page : List Command} {tree : Tree}
    (h : (parsePageWithin room db matching diagnostics log page).outcome = .ok tree) :
    ∃ (issues : List Diagnostic) (ledger : Ledger),
      (parsePageWithin room db matching diagnostics log page).diagnostics.entries.toList =
        diagnostics.entries.toList ++ issues ∧
      ledger.Balances db matching page tree issues := by
  obtain ⟨f, rfl, hfits, hresult⟩ := Forest.exists_of_parsePageWithin h
  rw [hresult] at h ⊢
  cases h
  have hnodes : (f.ledger 0 1).nodes = List.range' 1 f.tree.size := by
    rw [Forest.nodes_ledger, Forest.size_tree]
  refine ⟨f.issues db 0, f.ledger 0 1, Journal.entries_addAll _ _, f.map_fst_ledger 0 1,
    f.walk_tree, hnodes, ?accounts, ?justifies, f.droppedFrom_ledger 0 1 0, ?length⟩
  case accounts =>
    intro id hid
    rw [Forest.nodes_ledger, ← f.map_id_nodes 0 1] at hid
    obtain ⟨n, hn, rfl⟩ := List.mem_map.1 hid
    exact ⟨n, f.getElem?_tree hn, rfl, Forest.accounts_ledger hfits 0 1 n hn⟩
  case justifies =>
    exact fun e he => Forest.justifies_of_body (Forest.justifies_ledger hfits 0 1 e he)
  case length =>
    rw [← Forest.length_ledger f 0 1, Ledger.length_eq, hnodes, List.length_range']

/-- The ledger of a page with a scope of two arms, a text and a route. -/
theorem exists_ledger_sample :
    (parsePageWithin 1 .sample .code (.empty true) #[] Forest.sample.flatten).outcome =
        .ok Forest.sample.tree ∧
      ∃ (issues : List Diagnostic) (ledger : Ledger),
        (parsePageWithin 1 .sample .code (.empty true) #[]
            Forest.sample.flatten).diagnostics.entries.toList = [] ++ issues ∧
          ledger.Balances .sample .code Forest.sample.flatten Forest.sample.tree issues := by
  have h : (parsePageWithin 1 .sample .code (.empty true) #[] Forest.sample.flatten).outcome =
      .ok Forest.sample.tree := rfl
  exact ⟨h, exists_ledger_of_parsePageWithin h⟩

end PageOutline
