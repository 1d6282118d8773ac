import PageOutline.Proofs.Forest.Replay
import PageOutline.Proofs.Ledger

/-!
# The roles that a sweep gives to commands

Every command that a sweep reads has one role, and the roles of a whole page are its ledger, also
when a scope of the page is never closed. `Step` says all that reading one command can come to. What
a run keeps is shown by cases on it, and it determines the step, so that it also serves to compare
two sweeps.
-/

namespace PageOutline

namespace Absorber

/-- The node that takes commands in. -/
def node : Absorber → Nat
  | text node _ => node
  | route node _ => node

/-- The kind of the command of that node. -/
def kind : Absorber → CommandKind
  | text _ continuation => .text continuation
  | route _ continuation => .route continuation

end Absorber

namespace Command

/-- The issue of a command without a descriptor. -/
def unknownIssue (c : Command) (position : Int) : Diagnostic :=
  ⟨.unknownCode, c.code, position, "no descriptor, kept as a leaf"⟩

/-- The issues of a command that is kept as a leaf: one if it has no descriptor. -/
def leafIssues (db : Database) (c : Command) (position : Int) : List Diagnostic :=
  if (db.get? c.code).isNone then [c.unknownIssue position] else []

/-- A command with a descriptor is no issue. -/
theorem leafIssues_of_kind? {db : Database} {c : Command} {kind : CommandKind}
    (h : db.kind? c.code = some kind) (position : Int) : c.leafIssues db position = [] := by
  obtain ⟨d, hd, -⟩ := Option.map_eq_some_iff.1 h
  simp [leafIssues, hd]

/-- A line can be joined when both it and the opening command have a text. -/
theorem isSome_joinLine? (opener line : Command) :
    (opener.joinLine? line).isSome = (opener.text?.isSome && line.text?.isSome) := by
  unfold joinLine?
  cases opener.text? <;> cases line.text? <;> rfl

end Command

namespace Sweep

/-- The role of a command that an absorber takes. -/
def absorbRole (s : Sweep) (a : Absorber) (c : Command) : Role :=
  match a with
  | .text node _ => .ofLine node (s.arena.commandAt node) c
  | .route node _ => .companion node

/-- The role of a command that nothing else claims. -/
def placeRole (db : Database) (s : Sweep) (c : Command) : Role :=
  if c.isSentinel then .padding
  else
    match db.kind? c.code with
    | some (.scope _) => .opener s.arena.size
    | _ => .leaf s.arena.size

/-- The role of a command that no absorber takes. -/
def acceptRole (db : Database) (matching : Matching) (s : Sweep) (c : Command) : Role :=
  match s.scopes with
  | [] => s.placeRole db c
  | scope :: _ =>
    if scope.kind.terminator.code.holds c.code then .terminator scope.node
    else if (scope.kind.findBranch? matching c).isSome then .delimiter s.arena.size scope.node
    else s.placeRole db c

/-- The role of the next command. -/
def role (db : Database) (matching : Matching) (s : Sweep) (c : Command) : Role :=
  match s.absorber? with
  | some a => if a.takes c then s.absorbRole a c else s.acceptRole db matching c
  | none => s.acceptRole db matching c

/-- The issues of the next command in a role. -/
def issuesAs (db : Database) (s : Sweep) (c : Command) : Role → List Diagnostic
  | .leaf _ => c.leafIssues db (s.position + 1)
  | .dropped node => [malformedLine (s.arena.commandAt node) (s.position + 1) c]
  | _ => []

/-- Whether the pending absorber, if there is one, does not take a command. -/
def Frees (s : Sweep) (c : Command) : Prop := ∀ a ∈ s.absorber?, a.takes c = false

/-- Whether a command neither closes the innermost scope nor starts an arm of it. -/
def Passes (matching : Matching) (s : Sweep) (c : Command) : Prop :=
  ∀ kind ∈ s.scopes.head?.map (·.kind), kind.Passes matching c

/-- The sweep after one more command. -/
def next (s : Sweep) (arena : Arena) (scopes : List Scope) (absorber? : Option Absorber)
    (issues : List Diagnostic) : Sweep :=
  ⟨s.root, arena, scopes, absorber?, s.position + 1, s.journal.addAll issues⟩

/-- All that reading one command can come to: its role and the sweep after it. -/
inductive Step (db : Database) (matching : Matching) (s : Sweep) (c : Command) :
    Role → Sweep → Prop
  | merged {node : Nat} {continuation : CodeSlot} {joined : Command}
      (habsorber : s.absorber? = some (.text node continuation))
      (hholds : continuation.holds c.code = true)
      (hjoin : (s.arena.commandAt node).joinLine? c = some joined) :
      Step db matching s c (.merged node)
        (s.next (s.arena.withCommand node joined) s.scopes s.absorber? [])
  | dropped {node : Nat} {continuation : CodeSlot}
      (habsorber : s.absorber? = some (.text node continuation))
      (hholds : continuation.holds c.code = true)
      (hjoin : (s.arena.commandAt node).joinLine? c = none) :
      Step db matching s c (.dropped node)
        (s.next s.arena s.scopes s.absorber?
          [malformedLine (s.arena.commandAt node) (s.position + 1) c])
  | companion {node : Nat} {continuation : CodeSlot}
      (habsorber : s.absorber? = some (.route node continuation))
      (hholds : continuation.holds c.code = true) :
      Step db matching s c (.companion node)
        (s.next (s.arena.withCompanions node [c]) s.scopes s.absorber? [])
  | terminator {scope : Scope} {outer : List Scope} (hfree : s.Frees c)
      (hscopes : s.scopes = scope :: outer)
      (hterm : scope.kind.terminator.code.holds c.code = true) :
      Step db matching s c (.terminator scope.node) (s.next s.arena outer none [])
  | delimiter {scope : Scope} {outer : List Scope} (hfree : s.Frees c)
      (hscopes : s.scopes = scope :: outer)
      (hterm : ¬scope.kind.terminator.code.holds c.code = true)
      (hbranch : (scope.kind.findBranch? matching c).isSome = true) :
      Step db matching s c (.delimiter s.arena.size scope.node)
        (s.next (s.arena.extend scope.node c) ({ scope with arm := s.arena.size } :: outer) none [])
  | padding (hfree : s.Frees c) (hpasses : s.Passes matching c) (hpad : c.isSentinel = true) :
      Step db matching s c .padding (s.next s.arena s.scopes none [])
  | opener {kind : ScopeKind} (hfree : s.Frees c) (hpasses : s.Passes matching c)
      (hpad : c.isSentinel = false) (hkind : db.kind? c.code = some (.scope kind)) :
      Step db matching s c (.opener s.arena.size)
        (s.next (s.arena.extend s.parent c)
          (⟨s.arena.size, s.arena.size, kind, c.code, s.position + 1⟩ :: s.scopes) none [])
  | text {continuation : CodeSlot} (hfree : s.Frees c) (hpasses : s.Passes matching c)
      (hpad : c.isSentinel = false) (hkind : db.kind? c.code = some (.text continuation)) :
      Step db matching s c (.leaf s.arena.size)
        (s.next (s.arena.extend s.parent c) s.scopes (some (.text s.arena.size continuation)) [])
  | route {continuation : CodeSlot} (hfree : s.Frees c) (hpasses : s.Passes matching c)
      (hpad : c.isSentinel = false) (hkind : db.kind? c.code = some (.route continuation)) :
      Step db matching s c (.leaf s.arena.size)
        (s.next (s.arena.extend s.parent c) s.scopes (some (.route s.arena.size continuation)) [])
  | leaf (hfree : s.Frees c) (hpasses : s.Passes matching c) (hpad : c.isSentinel = false)
      (hkind : ∀ kind ∈ db.kind? c.code, kind.StandsAlone) :
      Step db matching s c (.leaf s.arena.size)
        (s.next (s.arena.extend s.parent c) s.scopes none (c.leafIssues db (s.position + 1)))

variable {db : Database} {matching : Matching} {s t : Sweep} {c : Command} {role : Role}

/-- A command that nothing takes is read as if nothing were pending. -/
theorem step_of_frees (db : Database) (matching : Matching) (h : s.Frees c) :
    s.role db matching c = s.acceptRole db matching c ∧
      s.step db matching c = s.advance.release.accept db matching c := by
  unfold Sweep.role step
  cases ha : s.absorber? with
  | none =>
    have heq : s.advance.release = s.advance := by simp [advance, release, ha]
    exact ⟨rfl, by rw [heq]⟩
  | some a =>
    have htakes : ¬a.takes c = true := by simp [h a ha]
    exact ⟨if_neg htakes, if_neg htakes⟩

/-- The role of a command that the absorber takes is the absorber's to give. -/
theorem role_of_takes {a : Absorber} (ha : s.absorber? = some a) (htakes : a.takes c = true) :
    s.role db matching c = s.absorbRole a c := by
  simp only [Sweep.role, ha, htakes, if_true]

/-- A command in a body is placed when nothing takes it. -/
theorem step_of_passes (db : Database) (hfree : s.Frees c) (hpasses : s.Passes matching c) :
    s.role db matching c = s.placeRole db c ∧
      s.step db matching c = s.advance.release.place db c := by
  obtain ⟨hrole, hstep⟩ := step_of_frees db matching hfree
  have haccept : s.advance.release.accept db matching c = s.advance.release.place db c :=
    accept_of_passes hpasses
  refine ⟨?_, hstep.trans haccept⟩
  rw [hrole, acceptRole]
  cases hscopes : s.scopes with
  | nil => rfl
  | cons scope outer =>
    obtain ⟨hterm, hbranch⟩ := hpasses scope.kind (by simp [hscopes])
    simp only [if_neg hterm, if_neg hbranch]

/-- Only what the relation says can come of a command. -/
theorem Step.eq (h : Step db matching s c role t) :
    role = s.role db matching c ∧ t = s.step db matching c := by
  cases h with
  | merged habsorber hholds hjoin =>
    have hjoins := (Command.isSome_joinLine? _ c).symm.trans (congrArg Option.isSome hjoin)
    rw [role_of_takes habsorber hholds, step_of_takes db matching habsorber hholds]
    refine ⟨(if_pos hjoins).symm, ?_⟩
    simp only [absorb, advance, hjoin]
    rfl
  | dropped habsorber hholds hjoin =>
    have hjoins := (Command.isSome_joinLine? _ c).symm.trans (congrArg Option.isSome hjoin)
    rw [role_of_takes habsorber hholds, step_of_takes db matching habsorber hholds]
    refine ⟨(if_neg (by simp [hjoins])).symm, ?_⟩
    simp only [absorb, advance, hjoin]
    rfl
  | companion habsorber hholds =>
    rw [role_of_takes habsorber hholds, step_of_takes db matching habsorber hholds]
    exact ⟨rfl, rfl⟩
  | terminator hfree hscopes hterm =>
    obtain ⟨hrole, hstep⟩ := step_of_frees db matching hfree
    rw [hrole, hstep, accept_of_terminator (s := s.advance.release) hscopes hterm]
    simp only [acceptRole, hscopes, hterm, if_true]
    exact ⟨trivial, rfl⟩
  | delimiter hfree hscopes hterm hbranch =>
    obtain ⟨hrole, hstep⟩ := step_of_frees db matching hfree
    rw [hrole, hstep, accept_of_branch (s := s.advance.release) hscopes hterm hbranch]
    simp only [acceptRole, hscopes, if_neg hterm, hbranch, if_true]
    exact ⟨trivial, rfl⟩
  | padding hfree hpasses hpad =>
    obtain ⟨hrole, hstep⟩ := step_of_passes db hfree hpasses
    rw [hrole, hstep, place_padding hpad, placeRole, if_pos hpad]
    exact ⟨rfl, rfl⟩
  | opener hfree hpasses hpad hkind =>
    obtain ⟨hrole, hstep⟩ := step_of_passes db hfree hpasses
    rw [hrole, hstep, place_scope hpad hkind, placeRole, if_neg (by simp [hpad]), hkind]
    exact ⟨rfl, rfl⟩
  | text hfree hpasses hpad hkind =>
    obtain ⟨hrole, hstep⟩ := step_of_passes db hfree hpasses
    rw [hrole, hstep, place_text hpad hkind, placeRole, if_neg (by simp [hpad]), hkind]
    exact ⟨rfl, rfl⟩
  | route hfree hpasses hpad hkind =>
    obtain ⟨hrole, hstep⟩ := step_of_passes db hfree hpasses
    rw [hrole, hstep, place_route hpad hkind, placeRole, if_neg (by simp [hpad]), hkind]
    exact ⟨rfl, rfl⟩
  | leaf hfree hpasses hpad hkind =>
    obtain ⟨hrole, hstep⟩ := step_of_passes db hfree hpasses
    rw [hrole, hstep, place_leaf hpad hkind, placeRole, if_neg (by simp [hpad])]
    refine ⟨?_, rfl⟩
    cases hk : db.kind? c.code with
    | none => rfl
    | some kind =>
      have halone := hkind kind hk
      cases kind <;> first | rfl | exact absurd halone id

/-- What comes of a command that a body holds. -/
theorem Step.of_passes (db : Database) (hfree : s.Frees c) (hpasses : s.Passes matching c) :
    ∃ role t, Step db matching s c role t := by
  cases hpad : c.isSentinel with
  | true => exact ⟨_, _, .padding hfree hpasses hpad⟩
  | false =>
    cases hkind : db.kind? c.code with
    | none => exact ⟨_, _, .leaf hfree hpasses hpad (by simp [hkind])⟩
    | some kind =>
      cases kind with
      | scope kind => exact ⟨_, _, .opener hfree hpasses hpad hkind⟩
      | text continuation => exact ⟨_, _, .text hfree hpasses hpad hkind⟩
      | route continuation => exact ⟨_, _, .route hfree hpasses hpad hkind⟩
      | plain parameters =>
        exact ⟨_, _, .leaf hfree hpasses hpad (by simp [hkind, CommandKind.StandsAlone])⟩
      | mark => exact ⟨_, _, .leaf hfree hpasses hpad (by simp [hkind, CommandKind.StandsAlone])⟩

/-- Something comes of every command. -/
theorem exists_step (db : Database) (matching : Matching) (s : Sweep) (c : Command) :
    ∃ role t, Step db matching s c role t := by
  by_cases hfree : s.Frees c
  · cases hscopes : s.scopes with
    | nil => exact Step.of_passes db hfree (by simp [Passes, hscopes])
    | cons scope outer =>
      by_cases hterm : scope.kind.terminator.code.holds c.code = true
      · exact ⟨_, _, .terminator hfree hscopes hterm⟩
      · by_cases hbranch : (scope.kind.findBranch? matching c).isSome = true
        · exact ⟨_, _, .delimiter hfree hscopes hterm hbranch⟩
        · refine Step.of_passes db hfree fun kind hkind => ?_
          rw [hscopes] at hkind
          cases hkind
          exact ⟨hterm, hbranch⟩
  · obtain ⟨a, ha, htakes⟩ : ∃ a, s.absorber? = some a ∧ a.takes c = true := by
      simpa [Frees] using hfree
    cases a with
    | text node continuation =>
      cases hjoin : (s.arena.commandAt node).joinLine? c with
      | some joined => exact ⟨_, _, .merged ha htakes hjoin⟩
      | none => exact ⟨_, _, .dropped ha htakes hjoin⟩
    | route node continuation => exact ⟨_, _, .companion ha htakes⟩

/-- A step of a sweep is what the relation says. -/
theorem step_spec (db : Database) (matching : Matching) (s : Sweep) (c : Command) :
    Step db matching s c (s.role db matching c) (s.step db matching c) := by
  obtain ⟨role, t, h⟩ := exists_step db matching s c
  obtain ⟨rfl, rfl⟩ := h.eq
  exact h

/-- A command that no node takes in has met nothing pending that takes it. -/
theorem Step.frees (h : Step db matching s c role t) (htaker : role.taker? = none) : s.Frees c := by
  cases h with
  | merged | dropped | companion => cases htaker
  | terminator hfree | delimiter hfree | padding hfree | opener hfree | text hfree | route hfree
  | leaf hfree => exact hfree

/-- A step adds the issues of the command to the journal. -/
theorem Step.journal (h : Step db matching s c role t) :
    t.journal = s.journal.addAll (s.issuesAs db c role) := by
  cases h with
  | text hfree hpasses hpad hkind | route hfree hpasses hpad hkind =>
    rw [issuesAs, Command.leafIssues_of_kind? hkind]
    rfl
  | _ => rfl

/-- A step moves on by one command. -/
theorem Step.position (h : Step db matching s c role t) : t.position = s.position + 1 := by
  cases h <;> rfl

/-- The same sweep with other issues. -/
def noting (s : Sweep) (journal : Journal) : Sweep := { s with journal }

/-- What comes of a command does not depend on the issues before it. -/
theorem Step.noting (h : Step db matching s c role t) (journal : Journal) :
    Step db matching (s.noting journal) c role
      (t.noting (journal.addAll (s.issuesAs db c role))) := by
  cases h with
  | merged habsorber hholds hjoin => exact .merged (s := s.noting journal) habsorber hholds hjoin
  | dropped habsorber hholds hjoin => exact .dropped (s := s.noting journal) habsorber hholds hjoin
  | companion habsorber hholds => exact .companion (s := s.noting journal) habsorber hholds
  | terminator hfree hscopes hterm =>
    exact .terminator (s := s.noting journal) hfree hscopes hterm
  | delimiter hfree hscopes hterm hbranch =>
    exact .delimiter (s := s.noting journal) hfree hscopes hterm hbranch
  | padding hfree hpasses hpad => exact .padding (s := s.noting journal) hfree hpasses hpad
  | opener hfree hpasses hpad hkind =>
    exact .opener (s := s.noting journal) hfree hpasses hpad hkind
  | text hfree hpasses hpad hkind =>
    rw [issuesAs, Command.leafIssues_of_kind? hkind]
    exact .text (s := s.noting journal) hfree hpasses hpad hkind
  | route hfree hpasses hpad hkind =>
    rw [issuesAs, Command.leafIssues_of_kind? hkind]
    exact .route (s := s.noting journal) hfree hpasses hpad hkind
  | leaf hfree hpasses hpad hkind =>
    exact .leaf (s := s.noting journal) hfree hpasses hpad hkind

/-- Commands that are read one after the other, with their roles. -/
def ledger (db : Database) (matching : Matching) : Sweep → List Command → Ledger
  | _, [] => []
  | s, c :: rest =>
    (c, s.role db matching c) :: ledger db matching (s.step db matching c) rest

/-- The issues of commands that are read one after the other. -/
def issues (db : Database) (matching : Matching) : Sweep → List Command → List Diagnostic
  | _, [] => []
  | s, c :: rest =>
    s.issuesAs db c (s.role db matching c) ++ issues db matching (s.step db matching c) rest

/-- Two lists of commands in a row are read one after the other. -/
theorem run_append (s : Sweep) (cs ds : List Command) :
    s.run db matching (cs ++ ds) = (s.run db matching cs).run db matching ds :=
  List.foldl_append

/-- The peak of two lists of commands in a row is the higher one. -/
theorem peak_append (db : Database) (matching : Matching) (s : Sweep) (cs ds : List Command) :
    s.peak db matching (cs ++ ds) =
      max (s.peak db matching cs) ((s.run db matching cs).peak db matching ds) := by
  induction cs generalizing s with
  | nil => exact (Nat.max_eq_right (length_scopes_le_peak s ds)).symm
  | cons c cs ih => rw [List.cons_append, peak, peak, ih, run_cons, Nat.max_assoc]

/-- A ledger has the commands in the order in which they are read. -/
theorem map_fst_ledger (db : Database) (matching : Matching) (s : Sweep) (cs : List Command) :
    (s.ledger db matching cs).map Prod.fst = cs := by
  induction cs generalizing s with
  | nil => rfl
  | cons c cs ih => rw [ledger, List.map_cons, ih]

/-- The ledger of two lists of commands in a row goes on from where the first ends. -/
theorem ledger_append (db : Database) (matching : Matching) (s : Sweep) (cs ds : List Command) :
    s.ledger db matching (cs ++ ds) =
      s.ledger db matching cs ++ (s.run db matching cs).ledger db matching ds := by
  induction cs generalizing s with
  | nil => rfl
  | cons c cs ih => rw [List.cons_append, ledger, ledger, ih, run_cons, List.cons_append]

/-- The issues of two lists of commands in a row go on from where the first ends. -/
theorem issues_append (db : Database) (matching : Matching) (s : Sweep) (cs ds : List Command) :
    s.issues db matching (cs ++ ds) =
      s.issues db matching cs ++ (s.run db matching cs).issues db matching ds := by
  induction cs generalizing s with
  | nil => rfl
  | cons c cs ih => rw [List.cons_append, issues, issues, ih, run_cons, List.append_assoc]

/-- Reading commands moves on by as many. -/
theorem position_run (s : Sweep) (cs : List Command) :
    (s.run db matching cs).position = s.position + cs.length := by
  induction cs generalizing s with
  | nil => simp
  | cons c cs ih =>
    rw [run_cons, ih, (step_spec db matching s c).position, List.length_cons]
    omega

/-- Reading commands adds their issues to those there are. -/
theorem journal_run (s : Sweep) (cs : List Command) :
    (s.run db matching cs).journal = s.journal.addAll (s.issues db matching cs) := by
  induction cs generalizing s with
  | nil => rfl
  | cons c cs ih =>
    rw [run_cons, ih, (step_spec db matching s c).journal, issues, Journal.addAll_append]

/-- The issues before a run play no part in it. -/
theorem run_noting (s : Sweep) (journal : Journal) (cs : List Command) :
    (s.noting journal).run db matching cs =
      (s.run db matching cs).noting (journal.addAll (s.issues db matching cs)) := by
  induction cs generalizing s journal with
  | nil => rfl
  | cons c cs ih =>
    have hstep := ((step_spec db matching s c).noting journal).eq.2
    rw [run_cons, run_cons, ← hstep, ih, issues, Journal.addAll_append]

/-- The peak does not depend on the issues there are. -/
theorem peak_noting (s : Sweep) (journal : Journal) (cs : List Command) :
    (s.noting journal).peak db matching cs = s.peak db matching cs := by
  induction cs generalizing s journal with
  | nil => rfl
  | cons c cs ih =>
    have hstep := ((step_spec db matching s c).noting journal).eq.2
    rw [peak, peak, ← hstep, ih]
    rfl

end Sweep

end PageOutline
