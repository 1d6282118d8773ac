import PageOutline.Proofs.Forest.Basic
import PageOutline.Proofs.Sweep.Reading

/-!
# Replaying a forest

A sweep over the page that stands for a forest puts just the nodes of the forest under the node that
receives commands. The statement speaks of whatever follows in the page, so that it can be used
within scopes: what was pending before and after a forest plays no part.
-/

namespace PageOutline

namespace Arena

/-- The arena with a forest below a node. -/
def graft {layer : Layer} (a : Arena) (parent : Nat) (f : Forest layer) : Arena :=
  a.attach parent (f.roots a.size) (f.nodes parent a.size)

variable {a : Arena} {parent : Nat}

/-- A graft makes an arena larger by the nodes of the forest. -/
@[simp] theorem size_graft {layer : Layer} (a : Arena) (parent : Nat) (f : Forest layer) :
    (a.graft parent f).size = a.size + f.count := by
  simp [graft]

/-- An empty forest adds nothing. -/
@[simp] theorem graft_nil {layer : Layer} (a : Arena) (parent : Nat) :
    a.graft parent (.nil : Forest layer) = a := attach_nil ..

/-- To graft a forest after a leaf that was just made is to graft it with the leaf in front. -/
theorem graft_leaf (h : parent < a.size) (c : Command) (rest : Forest .body) :
    (a.extend parent c).graft parent rest = a.graft parent (.leaf c rest) := by
  rw [graft, size_extend, extend_eq_attach, attach_attach h]
  rfl

/-- To graft a forest after a text command with its lines joined is to graft it with the text in
front. -/
theorem graft_text (h : parent < a.size) (c : Command) (lines : List Command)
    (rest : Forest .body) :
    ((a.extend parent c).withCommand a.size (c.joined lines)).graft parent rest =
      a.graft parent (.text c lines rest) := by
  rw [graft, size_withCommand, size_extend, withCommand, extend_eq_attach, amend_attach_size,
    attach_attach h]
  rfl

/-- To graft a forest after a route with its companions is to graft it with the route in front. -/
theorem graft_route (h : parent < a.size) (c : Command) (entries : List Command)
    (rest : Forest .body) :
    ((a.extend parent c).withCompanions a.size entries).graft parent rest =
      a.graft parent (.route c entries rest) := by
  rw [graft, size_withCompanions, size_extend, withCompanions, extend_eq_attach, amend_attach_size,
    attach_attach h]
  simp [graft, Forest.roots, Forest.nodes, Node.detached]

/-- A new node with a body below it. -/
theorem graft_extend (a : Arena) (parent : Nat) (c : Command) (body : Forest .body) :
    (a.extend parent c).graft a.size body =
      a.attach parent [a.size] (⟨a.size, c, some parent, (body.roots (a.size + 1)).toArray, #[]⟩ ::
        body.nodes a.size (a.size + 1)) := by
  rw [graft, size_extend, extend_eq_attach, attach_attach_size]
  simp [Node.addChildren, Node.detached]

/-- To graft the other arms after an arm with its body is to graft them with the arm in front. -/
theorem graft_arm (h : parent < a.size) (c : Command) (body : Forest .body)
    (rest : Forest .arms) :
    ((a.extend parent c).graft a.size body).graft parent rest =
      a.graft parent (.arm c body rest) := by
  rw [graft, size_graft, size_extend, graft_extend, attach_attach h]
  simp [graft, Forest.roots, Forest.nodes]

/-- To graft a forest after a scope with its body and arms is to graft it with the scope in
front. -/
theorem graft_scope (h : parent < a.size) (c : Command) (body : Forest .body)
    (arms : Forest .arms) (terminator : Command) (rest : Forest .body) :
    (((a.extend parent c).graft a.size body).graft a.size arms).graft parent rest =
      a.graft parent (.scope c body arms terminator rest) := by
  have harms : ((a.extend parent c).graft a.size body).graft a.size arms =
      a.attach parent [a.size]
        (⟨a.size, c, some parent, (body.roots (a.size + 1) ++
            arms.roots (a.size + 1 + body.count)).toArray, #[]⟩ ::
          (body.nodes a.size (a.size + 1) ++ arms.nodes a.size (a.size + 1 + body.count))) := by
    rw [graft, size_graft, size_extend, graft_extend, attach_attach_size]
    simp [Node.addChildren]
  rw [graft, size_graft, size_graft, size_extend, harms, attach_attach h]
  simp [graft, Forest.roots, Forest.nodes]

end Arena

namespace Sweep

variable {db : Database} {matching : Matching} {bound : Nat}

/-- A command in a body is placed, whatever the scope around it. -/
theorem accept_of_passes {s : Sweep} {c : Command}
    (h : ∀ kind ∈ s.scopes.head?.map (·.kind), kind.Passes matching c) :
    s.accept db matching c = s.place db c := by
  cases hscopes : s.scopes with
  | nil => exact accept_of_nil hscopes
  | cons scope outer =>
    have hpasses := h scope.kind (by simp [hscopes])
    exact accept_of_neither hscopes hpasses.1 hpasses.2

/-- Padding leaves a sweep as it is. -/
theorem place_padding {c : Command} (h : c.isSentinel = true) (s : Sweep) : s.place db c = s := by
  rw [place, if_pos h]

/-- A command that stands alone gets a node, and an issue if it has no descriptor. -/
theorem place_leaf {c : Command} (hc : c.isSentinel = false)
    (h : ∀ kind ∈ db.kind? c.code, kind.StandsAlone) (s : Sweep) :
    s.place db c =
      { s with
        arena := s.arena.extend s.parent c
        journal := s.journal.addAll ((Forest.leaf c .nil).issues db s.position) } := by
  have hnot : ¬c.isSentinel = true := by simp [hc]
  cases hd : db.get? c.code with
  | none => simp [place, hnot, hd, Forest.issues]
  | some d =>
    have hkind := h d.kind (by simp [Database.kind?, hd])
    simp only [place, if_neg hnot, hd, Forest.issues]
    cases hk : d.kind with
    | plain parameters => rfl
    | mark => rfl
    | _ => simp [hk, CommandKind.StandsAlone] at hkind

/-- A text command gets a node, which takes in what goes on with its text. -/
theorem place_text {c : Command} {continuation : CodeSlot} (hc : c.isSentinel = false)
    (h : db.kind? c.code = some (.text continuation)) (s : Sweep) :
    s.place db c =
      { s with
        arena := s.arena.extend s.parent c
        absorber? := some (.text s.arena.size continuation) } := by
  obtain ⟨d, hd, hkind⟩ := Option.map_eq_some_iff.1 h
  simp only [place, hc, hd, hkind, Bool.false_eq_true, if_false]

/-- A route gets a node, which takes in the entries after it. -/
theorem place_route {c : Command} {continuation : CodeSlot} (hc : c.isSentinel = false)
    (h : db.kind? c.code = some (.route continuation)) (s : Sweep) :
    s.place db c =
      { s with
        arena := s.arena.extend s.parent c
        absorber? := some (.route s.arena.size continuation) } := by
  obtain ⟨d, hd, hkind⟩ := Option.map_eq_some_iff.1 h
  simp only [place, hc, hd, hkind, Bool.false_eq_true, if_false]

/-- A command that opens a scope gets a node and puts the scope on the stack. -/
theorem place_scope {c : Command} {kind : ScopeKind} (hc : c.isSentinel = false)
    (h : db.kind? c.code = some (.scope kind)) (s : Sweep) :
    s.place db c = s.enter c kind := by
  obtain ⟨d, hd, hkind⟩ := Option.map_eq_some_iff.1 h
  simp only [place, hc, hd, hkind, Bool.false_eq_true, if_false]
  rfl

/-- Reading a command of a body with nothing pending places it. -/
theorem Leads.place (db : Database) {s : Sweep} {c : Command} (hpending : s.absorber? = none)
    (hbound : s.scopes.length ≤ bound)
    (h : ∀ kind ∈ s.scopes.head?.map (·.kind), kind.Passes matching c) (cs : List Command) :
    Leads db matching bound s (c :: cs) (s.advance.place db c) cs := by
  have hstep := Leads.step db matching hbound c cs
  rwa [step_of_none hpending, accept_of_passes (s := s.advance) h] at hstep

/-- Reading a command of a body that places an absorber, and then all that the absorber takes. -/
theorem Leads.place_run {s t u : Sweep} {c : Command} {a : Absorber} {taken rest : List Command}
    (hpending : s.absorber? = none) (hopen : s.scopes.length ≤ bound)
    (h : ∀ kind ∈ s.scopes.head?.map (·.kind), kind.Passes matching c)
    (hplace : s.advance.place db c = t) (hscopes : t.scopes = s.scopes)
    (habsorber : t.absorber? = some a) (htakes : ∀ d ∈ taken, a.takes d = true)
    (hnot : ∀ d ∈ rest.head?, a.takes d = false)
    (hrun : (t.run db matching taken).release = u) :
    Leads db matching bound s (c :: (taken ++ rest)) u rest := by
  have hfirst := Leads.place db hpending hopen h (taken ++ rest)
  rw [hplace] at hfirst
  rw [← hscopes] at hopen
  exact hfirst.trans (Leads.of_run hopen habsorber rfl htakes hnot hrun)

end Sweep

/-- The sweep after a body: its nodes are below the node that receives commands. -/
def Sweep.afterBody (db : Database) (s : Sweep) (f : Forest .body) : Sweep :=
  { s with
    arena := s.arena.graft s.parent f
    position := s.position + f.flatten.length
    journal := s.journal.addAll (f.issues db (s.position + 1)) }

/-- The sweep after the arms of a scope and its terminator: the nodes of the arms are below the
node of the scope, and the scopes around it are left. -/
def Sweep.afterArms (db : Database) (s : Sweep) (scope : Scope) (outer : List Scope)
    (f : Forest .arms) : Sweep :=
  { s with
    arena := s.arena.graft scope.node f
    scopes := outer
    position := s.position + f.flatten.length + 1
    journal := s.journal.addAll (f.issues db (s.position + 1)) }

/-- What a sweep over a forest comes to. A body leaves the open scopes as they are; a sequence of
arms is read up to the terminator of its scope. -/
def Forest.Replays (db : Database) (matching : Matching) :
    {layer : Layer} → Forest layer → Prop
  | .body, f =>
    ∀ (bound : Nat) (s : Sweep) (ds : List Command), s.absorber? = none →
      s.parent < s.arena.size → s.scopes.length + f.depth ≤ bound →
      f.Fits db matching (s.scopes.head?.map (·.kind)) ds.head? →
      Sweep.Leads db matching bound s (f.flatten ++ ds) (s.afterBody db f) ds
  | .arms, f =>
    ∀ (bound : Nat) (s : Sweep) (scope : Scope) (outer : List Scope) (terminator : Command)
      (ds : List Command), s.absorber? = none → s.scopes = scope :: outer →
      scope.node < s.arena.size → s.scopes.length + f.depth ≤ bound →
      f.Fits db matching (some scope.kind) (some terminator) →
      scope.kind.terminator.code.holds terminator.code = true →
      Sweep.Leads db matching bound s (f.flatten ++ terminator :: ds)
        (s.afterArms db scope outer f) ds

namespace Forest

variable {db : Database} {matching : Matching}

/-- An empty body leaves the sweep as it is, and an empty sequence of arms is ended by the
terminator. -/
theorem replays_nil {layer : Layer} : (nil : Forest layer).Replays db matching := by
  cases layer with
  | body =>
    intro bound s ds _ _ _ _
    have heq : s.afterBody db .nil = s := by
      simp [Sweep.afterBody, flatten, issues]
    rw [heq]
    exact Sweep.Leads.refl ..
  | arms =>
    intro bound s scope outer terminator ds hpending hscopes _ hbound _ hterm
    have hopen : s.scopes.length ≤ bound := by omega
    have hstep := Sweep.Leads.step db matching hopen terminator ds
    rw [Sweep.step_of_none hpending,
      Sweep.accept_of_terminator (s := s.advance) hscopes hterm] at hstep
    have heq : s.afterArms db scope outer .nil = { s.advance with scopes := outer } := by
      simp [Sweep.afterArms, Sweep.advance, flatten, issues]
    rw [heq]
    exact hstep

/-- A body with padding in front is replayed if the rest of it is. -/
theorem replays_padding {c : Command} {rest : Forest .body} (ih : rest.Replays db matching) :
    (padding c rest).Replays db matching := by
  intro bound s ds hpending hparent hbound hfits
  obtain ⟨hpad, hpasses, hrest⟩ := hfits
  have heq : s.advance.afterBody db rest = s.afterBody db (.padding c rest) := by
    refine Sweep.ext rfl rfl rfl rfl ?_ rfl
    simp only [Sweep.afterBody, Sweep.advance, flatten, List.length_cons]
    omega
  refine (Sweep.Leads.place db hpending (by omega) hpasses _).trans ?_
  rw [Sweep.place_padding hpad, ← heq]
  exact ih bound s.advance ds hpending hparent hbound hrest

/-- A body with a leaf in front is replayed if the rest of it is. -/
theorem replays_leaf {c : Command} {rest : Forest .body} (ih : rest.Replays db matching) :
    (leaf c rest).Replays db matching := by
  intro bound s ds hpending hparent hbound hfits
  obtain ⟨hc, hpasses, hkind, hrest⟩ := hfits
  let t : Sweep := { s.advance with
    arena := s.arena.extend s.parent c
    journal := s.journal.addAll ((leaf c .nil).issues db s.advance.position) }
  have hsize : t.arena.size = s.arena.size + 1 := Arena.size_extend ..
  have hparent' : t.parent < t.arena.size := by
    rw [hsize]
    exact Nat.lt_succ_of_lt hparent
  have heq : t.afterBody db rest = s.afterBody db (.leaf c rest) := by
    refine Sweep.ext rfl (Arena.graft_leaf hparent c rest) rfl rfl ?position ?journal
    case position =>
      simp only [Sweep.afterBody, Sweep.advance, flatten, List.length_cons, t]
      omega
    case journal =>
      simp only [Sweep.afterBody, Sweep.advance, issues, t]
      split <;> rfl
  refine (Sweep.Leads.place db hpending (by omega) hpasses _).trans ?_
  rw [Sweep.place_leaf hc hkind, ← heq]
  exact ih bound t ds hpending hparent' hbound hrest

/-- A body with a text command in front is replayed if the rest of it is: the sweep takes in the
whole run of lines first. -/
theorem replays_text {c : Command} {lines : List Command} {rest : Forest .body}
    (ih : rest.Replays db matching) : (text c lines rest).Replays db matching := by
  intro bound s ds hpending hparent hbound hfits
  obtain ⟨hc, hpasses, ⟨continuation, hkind, hlines, hnext⟩, hrest⟩ := hfits
  let t : Sweep := { s.advance with
    arena := s.arena.extend s.parent c
    absorber? := some (.text s.arena.size continuation) }
  let u : Sweep := { s.advance with
    arena := (s.arena.extend s.parent c).withCommand s.arena.size (c.joined lines)
    position := s.advance.position + lines.length
    journal := s.journal.addAll (malformedLines c (s.advance.position + 1) lines) }
  have hsize : t.arena.size = s.arena.size + 1 := Arena.size_extend ..
  have hparent' : u.parent < u.arena.size := by
    rw [show u.arena.size = s.arena.size + 1 by simp [u]]
    exact Nat.lt_succ_of_lt hparent
  have hrun : (t.run db matching lines).release = u := by
    rw [Sweep.run_text lines rfl (by rw [hsize]; exact Nat.lt_succ_self _) hlines]
    simp only [t, Arena.commandAt_extend]
    exact Sweep.ext rfl rfl rfl hpending.symm rfl rfl
  have heq : u.afterBody db rest = s.afterBody db (.text c lines rest) := by
    refine Sweep.ext rfl (Arena.graft_text hparent c lines rest) rfl rfl ?position ?journal
    case position =>
      simp only [Sweep.afterBody, Sweep.advance, flatten, List.length_cons, List.length_append, u]
      omega
    case journal =>
      simp only [Sweep.afterBody, Sweep.advance, issues, Journal.addAll_append, u]
      congr 2
      omega
  rw [← head?_flatten_append] at hnext
  rw [show (text c lines rest).flatten ++ ds = c :: (lines ++ (rest.flatten ++ ds)) by
    simp [flatten], ← heq]
  have hitem : Sweep.Leads db matching bound s _ u _ :=
    .place_run hpending (Nat.le_of_add_right_le hbound) hpasses
      (Sweep.place_text hc hkind s.advance)
      rfl rfl hlines hnext hrun
  exact hitem.trans (ih bound u ds hpending hparent' hbound hrest)

/-- A body with a route in front is replayed if the rest of it is: the sweep takes in the whole run
of entries first. -/
theorem replays_route {c : Command} {entries : List Command} {rest : Forest .body}
    (ih : rest.Replays db matching) : (route c entries rest).Replays db matching := by
  intro bound s ds hpending hparent hbound hfits
  obtain ⟨hc, hpasses, ⟨continuation, hkind, hentries, hnext⟩, hrest⟩ := hfits
  let t : Sweep := { s.advance with
    arena := s.arena.extend s.parent c
    absorber? := some (.route s.arena.size continuation) }
  let u : Sweep := { s.advance with
    arena := (s.arena.extend s.parent c).withCompanions s.arena.size entries
    position := s.advance.position + entries.length }
  have hparent' : u.parent < u.arena.size := by
    rw [show u.arena.size = s.arena.size + 1 by simp [u]]
    exact Nat.lt_succ_of_lt hparent
  have hrun : (t.run db matching entries).release = u := by
    rw [Sweep.run_route entries rfl hentries]
    exact Sweep.ext rfl rfl rfl hpending.symm rfl rfl
  have heq : u.afterBody db rest = s.afterBody db (.route c entries rest) := by
    refine Sweep.ext rfl (Arena.graft_route hparent c entries rest) rfl rfl ?position ?journal
    case position =>
      simp only [Sweep.afterBody, Sweep.advance, flatten, List.length_cons, List.length_append, u]
      omega
    case journal =>
      simp only [Sweep.afterBody, Sweep.advance, issues, u]
      congr 2
      omega
  rw [← head?_flatten_append] at hnext
  rw [show (route c entries rest).flatten ++ ds = c :: (entries ++ (rest.flatten ++ ds)) by
    simp [flatten], ← heq]
  have hitem : Sweep.Leads db matching bound s _ u _ :=
    .place_run hpending (Nat.le_of_add_right_le hbound) hpasses
      (Sweep.place_route hc hkind s.advance)
      rfl rfl hentries hnext hrun
  exact hitem.trans (ih bound u ds hpending hparent' hbound hrest)

/-- What comes of a scope and of what follows it, part by part. -/
theorem afterBody_scope {s : Sweep} (hparent : s.parent < s.arena.size) (c : Command)
    (kind : ScopeKind) (body : Forest .body) (arms : Forest .arms) (terminator : Command)
    (rest : Forest .body) :
    (((s.advance.enter c kind).afterBody db body).afterArms db
        ⟨s.arena.size, s.arena.size, kind, c.code, s.advance.position⟩ s.scopes arms).afterBody db
          rest =
      s.afterBody db (.scope c body arms terminator rest) := by
  refine Sweep.ext rfl (Arena.graft_scope hparent c body arms terminator rest) rfl rfl
    ?position ?journal
  case position =>
    simp only [Sweep.afterBody, Sweep.afterArms, Sweep.enter, Sweep.advance, flatten,
      List.length_cons, List.length_append]
    omega
  case journal =>
    have harms : s.position + 1 + body.flatten.length + 1 =
        s.position + 1 + 1 + body.flatten.length := by omega
    have hrest : s.position + 1 + body.flatten.length + arms.flatten.length + 1 + 1 =
        s.position + 1 + 1 + body.flatten.length + arms.flatten.length + 1 := by omega
    simp only [Sweep.afterBody, Sweep.afterArms, Sweep.enter, Sweep.advance, issues,
      Journal.addAll_append, harms, hrest]

/-- A body with a scope in front is replayed if the scope's body, its arms and what follows them
are. The sweep goes into the scope, through the arms and out at the terminator. -/
theorem replays_scope {c terminator : Command} {body rest : Forest .body} {arms : Forest .arms}
    (ihBody : body.Replays db matching) (ihArms : arms.Replays db matching)
    (ih : rest.Replays db matching) : (scope c body arms terminator rest).Replays db matching := by
  intro bound s ds hpending hparent hbound hfits
  obtain ⟨hc, hpasses, ⟨kind, hkind, hbody, harms, hterm⟩, hrest⟩ := hfits
  let t : Sweep := s.advance.enter c kind
  let u : Sweep := t.afterBody db body
  let opened : Scope := ⟨s.arena.size, s.arena.size, kind, c.code, s.advance.position⟩
  let v : Sweep := u.afterArms db opened s.scopes arms
  have hsize : t.arena.size = s.arena.size + 1 := Sweep.size_enter ..
  have hsizeu : u.arena.size = s.arena.size + 1 + body.count := by
    rw [← hsize]
    exact Arena.size_graft ..
  have hsizev : v.arena.size = s.arena.size + 1 + body.count + arms.count := by
    rw [← hsizeu]
    exact Arena.size_graft ..
  have hscopes : t.scopes.length = s.scopes.length + 1 := rfl
  rw [depth] at hbound
  have hflat : (scope c body arms terminator rest).flatten ++ ds =
      c :: (body.flatten ++ (arms.flatten ++ terminator :: (rest.flatten ++ ds))) := by
    simp [flatten]
  rw [hflat, ← afterBody_scope hparent c kind body arms terminator rest]
  have hopen : s.scopes.length ≤ bound := by omega
  have hplace := Sweep.Leads.place db hpending hopen hpasses
    (body.flatten ++ (arms.flatten ++ terminator :: (rest.flatten ++ ds)))
  rw [Sweep.place_scope hc hkind] at hplace
  have hnext : (arms.flatten ++ terminator :: (rest.flatten ++ ds)).head? =
      arms.first (some terminator) := head?_flatten_append ..
  rw [← hnext] at hbody
  have hreadBody := ihBody bound t _ hpending (by rw [hsize]; exact Nat.lt_succ_self _) (by omega)
    hbody
  have hreadArms := ihArms bound u opened s.scopes terminator (rest.flatten ++ ds) hpending rfl
    (by rw [hsizeu]; show s.arena.size < _; omega) (by show t.scopes.length + _ ≤ _; omega) harms
    hterm
  have hreadRest := ih bound v ds hpending (by rw [hsizev]; show s.parent < _; omega)
    (by show s.scopes.length + _ ≤ _; omega) hrest
  exact ((hplace.trans hreadBody).trans hreadArms).trans hreadRest

/-- What comes of an arm and of the arms that follow it, part by part. -/
theorem afterArms_arm {s : Sweep} {scope : Scope} (hnode : scope.node < s.arena.size)
    (outer : List Scope) (delimiter : Command) (body : Forest .body) (rest : Forest .arms) :
    ((s.advance.divide scope outer delimiter).afterBody db body).afterArms db
        { scope with arm := s.arena.size } outer rest =
      s.afterArms db scope outer (.arm delimiter body rest) := by
  refine Sweep.ext rfl (Arena.graft_arm hnode delimiter body rest) rfl rfl ?position ?journal
  case position =>
    simp only [Sweep.afterBody, Sweep.afterArms, Sweep.divide, Sweep.advance, flatten,
      List.length_cons, List.length_append]
    omega
  case journal =>
    have hrest : s.position + 1 + body.flatten.length + 1 =
        s.position + 1 + 1 + body.flatten.length := by omega
    simp only [Sweep.afterBody, Sweep.afterArms, Sweep.divide, Sweep.advance, issues,
      Journal.addAll_append, hrest]

/-- Arms with one more in front are replayed if its body and the other arms are. -/
theorem replays_arm {delimiter : Command} {body : Forest .body} {rest : Forest .arms}
    (ihBody : body.Replays db matching) (ih : rest.Replays db matching) :
    (arm delimiter body rest).Replays db matching := by
  intro bound s opened outer terminator ds hpending hscopes hnode hbound hfits hterm
  obtain ⟨⟨kind, hkind, hnot, hbranch⟩, hbody, hrest⟩ := hfits
  cases hkind
  let next : Scope := { opened with arm := s.arena.size }
  let t : Sweep := s.advance.divide opened outer delimiter
  let u : Sweep := t.afterBody db body
  have hsize : t.arena.size = s.arena.size + 1 := Sweep.size_divide ..
  have hsizeu : u.arena.size = s.arena.size + 1 + body.count := by
    rw [← hsize]
    exact Arena.size_graft ..
  have hlength : t.scopes.length = s.scopes.length := by rw [hscopes]; rfl
  rw [depth] at hbound
  have hflat : (arm delimiter body rest).flatten ++ terminator :: ds =
      delimiter :: (body.flatten ++ (rest.flatten ++ terminator :: ds)) := by
    simp [flatten]
  rw [hflat, ← afterArms_arm hnode outer delimiter body rest]
  have hopen : s.scopes.length ≤ bound := by omega
  have hstep := Sweep.Leads.step db matching hopen delimiter
    (body.flatten ++ (rest.flatten ++ terminator :: ds))
  rw [Sweep.step_of_none hpending,
    Sweep.accept_of_branch (s := s.advance) hscopes hnot hbranch] at hstep
  have hnext : (rest.flatten ++ terminator :: ds).head? = rest.first (some terminator) :=
    head?_flatten_append ..
  rw [← hnext] at hbody
  have hreadBody := ihBody bound t _ hpending (by rw [hsize]; exact Nat.lt_succ_self _) (by omega)
    hbody
  have hreadRest := ih bound u next outer terminator ds hpending rfl
    (by rw [hsizeu]; show opened.node < _; omega) (by show t.scopes.length + _ ≤ _; omega) hrest
    hterm
  exact (hstep.trans hreadBody).trans hreadRest

/-- A sweep over the page of a forest comes to the nodes of the forest. The induction is on the
forest; the number of open scopes and what follows in the page vary with it. -/
theorem replays {layer : Layer} (f : Forest layer) : f.Replays db matching := by
  induction f with
  | nil => exact replays_nil
  | padding c rest ih => exact replays_padding ih
  | leaf c rest ih => exact replays_leaf ih
  | text c lines rest ih => exact replays_text ih
  | route c entries rest ih => exact replays_route ih
  | scope c body arms terminator rest ihBody ihArms ih => exact replays_scope ihBody ihArms ih
  | arm delimiter body rest ihBody ih => exact replays_arm ihBody ih

end Forest

end PageOutline
