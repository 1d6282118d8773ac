import PageOutline.Page.Parser
import PageOutline.Proofs.Growth

/-!
# Sweeps

The parser descends into every scope that a page opens. A sweep reads the same page in one pass from
left to right, with the open scopes on a stack. A text command or a route that was placed last stays
pending as the absorber of what follows, until a command comes that it does not take.
-/

namespace PageOutline

/-- A collector of issues together with the log. -/
structure Journal where
  diagnostics : Diagnostics
  log : Array LogRecord

namespace Journal

/-- Keeps an issue, and logs it unless the collector leaves its kind out. -/
def add (j : Journal) (d : Diagnostic) : Journal :=
  ⟨j.diagnostics.add d, if j.diagnostics.isLogged d then j.log.push (.issue d) else j.log⟩

/-- Keeps issues in order. -/
def addAll (j : Journal) (ds : List Diagnostic) : Journal := ds.foldl add j

/-- Keeping no issues changes nothing. -/
@[simp] theorem addAll_nil (j : Journal) : j.addAll [] = j := rfl

/-- Issues are kept one after the other. -/
@[simp] theorem addAll_cons (j : Journal) (d : Diagnostic) (ds : List Diagnostic) :
    j.addAll (d :: ds) = (j.add d).addAll ds := rfl

/-- Issues in two rounds are kept as in one. -/
theorem addAll_append (j : Journal) (ds es : List Diagnostic) :
    j.addAll (ds ++ es) = (j.addAll ds).addAll es :=
  List.foldl_append

/-- Issues are kept in the order in which they come. -/
theorem entries_addAll (j : Journal) (ds : List Diagnostic) :
    (j.addAll ds).diagnostics.entries.toList = j.diagnostics.entries.toList ++ ds := by
  induction ds generalizing j with
  | nil => simp
  | cons d ds ih => simp [ih, add]

end Journal

/-- A node that takes in the commands with its continuation code. -/
inductive Absorber where
  | text (node : Nat) (continuation : CodeSlot)
  | route (node : Nat) (continuation : CodeSlot)

/-- Whether a command has the continuation code. -/
def Absorber.takes (a : Absorber) (c : Command) : Bool :=
  match a with
  | .text _ continuation => continuation.holds c.code
  | .route _ continuation => continuation.holds c.code

/-- What a sweep has made of the commands read so far: the arena, the open scopes with the innermost
first, the pending absorber, and the issues. `position` is the index of the command read last. -/
@[ext]
structure Sweep where
  root : Nat
  arena : Arena
  scopes : List Scope
  absorber? : Option Absorber
  position : Int
  journal : Journal

namespace Sweep

/-- The node that receives commands: the current arm of the innermost scope, or the root. -/
def parent (s : Sweep) : Nat :=
  match s.scopes with
  | [] => s.root
  | scope :: _ => scope.arm

/-- The sweep at the next command. -/
def advance (s : Sweep) : Sweep := { s with position := s.position + 1 }

/-- The same sweep with nothing pending. -/
def release (s : Sweep) : Sweep := { s with absorber? := none }

/-- Takes a command in: a line is joined to the text or else an issue, an entry of a route is kept
as a companion. -/
def absorb (s : Sweep) (a : Absorber) (c : Command) : Sweep :=
  match a with
  | .text node _ =>
    match (s.arena.commandAt node).joinLine? c with
    | some joined => { s with arena := s.arena.withCommand node joined }
    | none =>
      { s with journal := s.journal.add (malformedLine (s.arena.commandAt node) s.position c) }
  | .route node _ => { s with arena := s.arena.withCompanions node [c] }

/-- Makes a node for a command that nothing else claims. Padding is skipped. A scope goes on the
stack; a text command or a route becomes the absorber. -/
def place (db : Database) (s : Sweep) (c : Command) : Sweep :=
  if c.isSentinel then s
  else
    let id := s.arena.size
    let position := s.position
    let s := { s with arena := s.arena.extend s.parent c }
    match db.get? c.code with
    | none =>
      let issue := ⟨.unknownCode, c.code, position, "no descriptor, kept as a leaf"⟩
      { s with journal := s.journal.add issue }
    | some d =>
      match d.kind with
      | .scope kind => { s with scopes := ⟨id, id, kind, c.code, position⟩ :: s.scopes }
      | .text continuation => { s with absorber? := some (.text id continuation) }
      | .route continuation => { s with absorber? := some (.route id continuation) }
      | .plain _ => s
      | .mark => s

/-- Reads a command that no absorber takes: the terminator of the innermost scope closes it, a
delimiter starts its next arm, and any other command is placed. -/
def accept (db : Database) (matching : Matching) (s : Sweep) (c : Command) : Sweep :=
  match s.scopes with
  | [] => s.place db c
  | scope :: outer =>
    if scope.kind.terminator.code.holds c.code then { s with scopes := outer }
    else if (scope.kind.findBranch? matching c).isSome then
      let arm := s.arena.size
      { s with
        arena := s.arena.extend scope.node c
        scopes := { scope with arm } :: outer }
    else s.place db c

/-- Reads one command. -/
def step (db : Database) (matching : Matching) (s : Sweep) (c : Command) : Sweep :=
  match s.absorber? with
  | some a =>
    if a.takes c then s.advance.absorb a c else s.advance.release.accept db matching c
  | none => s.advance.accept db matching c

/-- Reads commands from left to right. -/
def run (db : Database) (matching : Matching) (s : Sweep) (commands : List Command) : Sweep :=
  commands.foldl (step db matching) s

/-- The largest number of scopes that are open at once while commands are read. -/
def peak (db : Database) (matching : Matching) : Sweep → List Command → Nat
  | s, [] => s.scopes.length
  | s, c :: rest => max s.scopes.length (peak db matching (s.step db matching c) rest)

/-- The sweep before the first command of a page. -/
def start (diagnostics : Diagnostics) (log : Array LogRecord) : Sweep :=
  ⟨Tree.empty.root, Tree.empty.arena, [], none, -1, ⟨diagnostics, log⟩⟩

/-- The error of a page that ends here: the innermost scope still open lacks its terminator. -/
def failure? (s : Sweep) : Option PageError :=
  match s.scopes with
  | [] => none
  | scope :: _ => some (.unterminated scope.opener scope.position scope.kind.terminator.code)

/-- What a page that ends here gives. -/
def result (s : Sweep) : PageResult :=
  match s.failure? with
  | some e => ⟨.error e, s.journal.diagnostics, s.journal.log⟩
  | none =>
    let tree : Tree := ⟨s.arena, s.root⟩
    let summary := .pageParsed (s.position + 1) tree.size s.journal.diagnostics.entries.size
    ⟨.ok tree, s.journal.diagnostics, s.journal.log.push summary⟩

/-- The sweep within the scope that a command opens. -/
def enter (s : Sweep) (c : Command) (kind : ScopeKind) : Sweep :=
  { s with
    arena := s.arena.extend s.parent c
    scopes := ⟨s.arena.size, s.arena.size, kind, c.code, s.position⟩ :: s.scopes }

/-- The sweep within the arm that a delimiter of the innermost scope starts. -/
def divide (s : Sweep) (scope : Scope) (outer : List Scope) (c : Command) : Sweep :=
  { s with
    arena := s.arena.extend scope.node c
    scopes := { scope with arm := s.arena.size } :: outer }

variable {db : Database} {matching : Matching}

/-- Entering a scope makes one node. -/
@[simp] theorem size_enter (s : Sweep) (c : Command) (kind : ScopeKind) :
    (s.enter c kind).arena.size = s.arena.size + 1 :=
  Arena.size_extend ..

/-- Starting an arm makes one node. -/
@[simp] theorem size_divide (s : Sweep) (scope : Scope) (outer : List Scope) (c : Command) :
    (s.divide scope outer c).arena.size = s.arena.size + 1 :=
  Arena.size_extend ..

/-- Reading no commands changes nothing. -/
@[simp] theorem run_nil (s : Sweep) : s.run db matching [] = s := rfl

/-- Commands are read one after the other. -/
@[simp] theorem run_cons (s : Sweep) (c : Command) (rest : List Command) :
    s.run db matching (c :: rest) = (s.step db matching c).run db matching rest := rfl

/-- The scopes that are open already count for the peak. -/
theorem length_scopes_le_peak (s : Sweep) (cs : List Command) :
    s.scopes.length ≤ s.peak db matching cs := by
  cases cs with
  | nil => exact Nat.le_refl _
  | cons c cs => exact Nat.le_max_left ..

/-- What a page gives does not depend on what is pending. -/
@[simp] theorem result_release (s : Sweep) : s.release.result = s.result := rfl

/-- Whether a page fails does not depend on what is pending. -/
@[simp] theorem failure?_release (s : Sweep) : s.release.failure? = s.failure? := rfl

/-- Dropping what is pending leaves the arena as it is. -/
@[simp] theorem arena_release (s : Sweep) : s.release.arena = s.arena := rfl

/-- Dropping what is pending leaves the issues as they are. -/
@[simp] theorem journal_release (s : Sweep) : s.release.journal = s.journal := rfl

section Accept

variable {s : Sweep} {scope : Scope} {outer : List Scope} {c : Command}

/-- The terminator of the innermost scope closes it. -/
theorem accept_of_terminator (hscopes : s.scopes = scope :: outer)
    (hterm : scope.kind.terminator.code.holds c.code = true) :
    s.accept db matching c = { s with scopes := outer } := by
  simp only [accept, hscopes, hterm, if_true]

/-- A delimiter of the innermost scope starts its next arm, unless it is the terminator. -/
theorem accept_of_branch (hscopes : s.scopes = scope :: outer)
    (hterm : ¬scope.kind.terminator.code.holds c.code = true)
    (hbranch : (scope.kind.findBranch? matching c).isSome = true) :
    s.accept db matching c = s.divide scope outer c := by
  simp only [accept, hscopes, if_neg hterm, hbranch, if_true]
  rfl

/-- Within a scope any other command is placed. -/
theorem accept_of_neither (hscopes : s.scopes = scope :: outer)
    (hterm : ¬scope.kind.terminator.code.holds c.code = true)
    (hbranch : ¬(scope.kind.findBranch? matching c).isSome = true) :
    s.accept db matching c = s.place db c := by
  simp only [accept, hscopes, if_neg hterm, if_neg hbranch]

/-- Outside of all scopes every command is placed. -/
theorem accept_of_nil (hscopes : s.scopes = []) : s.accept db matching c = s.place db c := by
  simp only [accept, hscopes]

end Accept

/-- Taking a command in neither opens nor closes a scope. -/
theorem scopes_absorb (s : Sweep) (a : Absorber) (c : Command) :
    (s.absorb a c).scopes = s.scopes := by
  unfold absorb
  split
  · split <;> rfl
  · rfl

/-- With nothing pending a command is accepted. -/
theorem step_of_none {s : Sweep} (h : s.absorber? = none) (c : Command) :
    s.step db matching c = s.advance.accept db matching c := by
  simp only [step, h]

/-- A command that the absorber does not take is read as if nothing were pending. -/
theorem step_release (db : Database) (matching : Matching) {s : Sweep} {c : Command}
    (h : s.absorber?.all fun a => !a.takes c) :
    s.release.step db matching c = s.step db matching c := by
  cases ha : s.absorber? with
  | none => simp [step, release, advance, ha]
  | some a =>
    have htakes : a.takes c = false := by simpa [ha] using h
    simp [step, release, advance, ha, htakes]

/-- Placing a command opens one scope at most. -/
theorem length_scopes_place_le (s : Sweep) (c : Command) :
    (s.place db c).scopes.length ≤ s.scopes.length + 1 := by
  unfold place
  split
  · exact Nat.le_succ _
  · dsimp only
    split
    · exact Nat.le_succ _
    · split <;> first | exact Nat.le_refl _ | exact Nat.le_succ _

/-- Accepting a command opens one scope at most. -/
theorem length_scopes_accept_le (s : Sweep) (c : Command) :
    (s.accept db matching c).scopes.length ≤ s.scopes.length + 1 := by
  cases hscopes : s.scopes with
  | nil =>
    rw [accept_of_nil hscopes, ← hscopes]
    exact length_scopes_place_le s c
  | cons scope outer =>
    by_cases hterm : scope.kind.terminator.code.holds c.code = true
    · rw [accept_of_terminator hscopes hterm]
      exact Nat.le_add_right _ 2
    · by_cases hbranch : (scope.kind.findBranch? matching c).isSome = true
      · rw [accept_of_branch hscopes hterm hbranch]
        exact Nat.le_succ _
      · rw [accept_of_neither hscopes hterm hbranch, ← hscopes]
        exact length_scopes_place_le s c

/-- A command opens one scope at most. -/
theorem length_scopes_step_le (db : Database) (matching : Matching) (s : Sweep) (c : Command) :
    (s.step db matching c).scopes.length ≤ s.scopes.length + 1 := by
  unfold step
  split
  · split
    · rw [scopes_absorb]
      exact Nat.le_succ _
    · exact length_scopes_accept_le s.advance.release c
  · exact length_scopes_accept_le s.advance c

/-- Each open scope takes a command of the page. -/
theorem peak_le (db : Database) (matching : Matching) (s : Sweep) (cs : List Command) :
    s.peak db matching cs ≤ s.scopes.length + cs.length := by
  induction cs generalizing s with
  | nil => exact Nat.le_refl _
  | cons c cs ih =>
    have hstep := length_scopes_step_le db matching s c
    have hrest := ih (s.step db matching c)
    rw [peak, List.length_cons]
    omega

end Sweep

end PageOutline
