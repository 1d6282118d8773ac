import PageOutline.Proofs.Forest.Basic
import PageOutline.Proofs.Sweep.Refinement

/-!
# Two parses in step

A parse asks the database for kinds of commands, and a kind for what it says about the commands of
the page. The issues that were collected before it never asks for. Two parses of one page that get
the same answers go through the same arenas and cursors, stop in the same way and find the same
issues.
-/

namespace PageOutline

section Agreement

variable (matching matching' : Matching) (page : List Command)

/-- Two kinds of scopes that are told apart by no command of a page. -/
structure ScopeKind.Agrees (k k' : ScopeKind) : Prop where
  terminator : k.terminator.code = k'.terminator.code
  delimiters : ∀ c ∈ page, (k.findBranch? matching c).isSome = (k'.findBranch? matching' c).isSome

/-- Two answers of databases from which a parse of a page goes on in the same way. -/
inductive KindsAgree : Option CommandKind → Option CommandKind → Prop
  | unknown : KindsAgree none none
  | alone {k k' : CommandKind} (h : k.StandsAlone) (h' : k'.StandsAlone) :
      KindsAgree (some k) (some k')
  | scope {k k' : ScopeKind} (h : k.Agrees matching matching' page k') :
      KindsAgree (some (.scope k)) (some (.scope k'))
  | text (continuation : CodeSlot) :
      KindsAgree (some (.text continuation)) (some (.text continuation))
  | route (continuation : CodeSlot) :
      KindsAgree (some (.route continuation)) (some (.route continuation))

/-- Two databases that say the same about the commands of a page. -/
def Database.Agrees (db db' : Database) : Prop :=
  ∀ c ∈ page, KindsAgree matching matching' page (db.kind? c.code) (db'.kind? c.code)

/-- An answer agrees with itself. -/
theorem KindsAgree.refl (kind? : Option CommandKind) :
    KindsAgree matching matching page kind? kind? := by
  cases kind? with
  | none => exact .unknown
  | some kind =>
    cases kind with
    | scope k => exact .scope ⟨rfl, fun _ _ => rfl⟩
    | text continuation => exact .text continuation
    | route continuation => exact .route continuation
    | plain parameters => exact .alone trivial trivial
    | mark => exact .alone trivial trivial

/-- A database agrees with itself about every page. -/
theorem Database.Agrees.refl (db : Database) : Database.Agrees matching matching page db db :=
  fun _ _ => .refl ..

/-- Two open scopes of the same commands whose kinds agree. -/
structure Scope.Agrees (scope scope' : Scope) : Prop where
  node : scope.node = scope'.node
  arm : scope.arm = scope'.arm
  opener : scope.opener = scope'.opener
  position : scope.position = scope'.position
  kind : scope.kind.Agrees matching matching' page scope'.kind

/-- Two outcomes of placing a command that differ in nothing but what is said of a scope. -/
inductive Placement.Agrees : Placement → Placement → Prop
  | skipped : Agrees .skipped .skipped
  | leaf (id : Nat) : Agrees (.leaf id) (.leaf id)
  | opened {scope scope' : Scope} (h : scope.Agrees matching matching' page scope') :
      Agrees (.opened scope) (.opened scope')

end Agreement

/-- What is left of a page after a run was left before it. -/
theorem Cursor.rest_takeRun_subset (cursor : Cursor) (slot : CodeSlot) :
    (cursor.takeRun slot).2.rest ⊆ cursor.rest := by
  have hparts := cursor.takeRun_append_rest slot
  intro c hc
  rw [← hparts]
  exact List.mem_append_right _ hc

namespace ParseState

/-- Two parses that stand at the same point with the same tree, whatever issues they have. -/
structure Level (s s' : ParseState) : Prop where
  arena : s.arena = s'.arena
  cursor : s.cursor = s'.cursor

/-- Two parses have come from one point to another and have found the same issues on the way. -/
structure InStep (s s' t t' : ParseState) : Prop where
  level : t.Level t'
  rest : t.cursor.rest ⊆ s.cursor.rest
  issues : ∃ issues, t.journal = s.journal.addAll issues ∧ t'.journal = s'.journal.addAll issues

/-- Two parts of a parse that have ended in step: with the same error, or with values in a
relation. -/
inductive Together {α : Type} (R : α → α → Prop) (s s' : ParseState) :
    Except PageError α × ParseState → Except PageError α × ParseState → Prop
  | ok {a a' : α} {t t' : ParseState} (hvalue : R a a') (hstep : InStep s s' t t') :
      Together R s s' (.ok a, t) (.ok a', t')
  | error {e : PageError} {t t' : ParseState} (hstep : InStep s s' t t') :
      Together R s s' (.error e, t) (.error e, t')

variable {α : Type} {R : α → α → Prop} {s s' t t' u u' : ParseState}

/-- Two parses that stand at the same point differ in their issues and logs at most. -/
theorem Level.exists_eq (h : s.Level s') : ∃ arena cursor diagnostics log diagnostics' log',
    s = ⟨arena, cursor, diagnostics, log⟩ ∧ s' = ⟨arena, cursor, diagnostics', log'⟩ := by
  obtain ⟨arena, cursor, diagnostics, log⟩ := s
  obtain ⟨arena', cursor', diagnostics', log'⟩ := s'
  obtain ⟨harena, hcursor⟩ := h
  dsimp only at harena hcursor
  subst harena hcursor
  exact ⟨_, _, _, _, _, _, rfl, rfl⟩

/-- Two parses that stand at the same point are in step. -/
theorem InStep.refl (h : s.Level s') : InStep s s' s s' :=
  ⟨h, List.Subset.refl _, [], rfl, rfl⟩

/-- Two parses that go on in step are in step over the whole way. -/
theorem InStep.trans (h : InStep s s' t t') (h' : InStep t t' u u') : InStep s s' u u' := by
  obtain ⟨first, hfirst, hfirst'⟩ := h.issues
  obtain ⟨second, hsecond, hsecond'⟩ := h'.issues
  refine ⟨h'.level, List.Subset.trans h'.rest h.rest, first ++ second, ?_, ?_⟩
  · rw [hsecond, hfirst, Journal.addAll_append]
  · rw [hsecond', hfirst', Journal.addAll_append]

/-- Parts of a parse that began later in step have also gone in step from before. -/
theorem Together.of_inStep {r r' : Except PageError α × ParseState} (h : InStep s s' t t')
    (hparts : Together R t t' r r') : Together R s s' r r' := by
  cases hparts with
  | ok hvalue hstep => exact .ok hvalue (h.trans hstep)
  | error hstep => exact .error (h.trans hstep)

/-- Two parses in step that began with the same issues are one. -/
theorem InStep.eq (h : InStep s s t t') : t = t' := by
  obtain ⟨arena, cursor, diagnostics, log, diagnostics', log', rfl, rfl⟩ := h.level.exists_eq
  obtain ⟨issues, hissues, hissues'⟩ := h.issues
  obtain ⟨rfl, rfl⟩ := Journal.mk.inj (hissues.trans hissues'.symm)
  rfl

/-- Two parts of a parse from one state that end together end in one state. -/
theorem Together.eq {r r' : Except PageError α × ParseState} (h : Together Eq s s r r') :
    r = r' := by
  cases h with
  | ok hvalue hstep => rw [hvalue, hstep.eq]
  | error hstep => rw [hstep.eq]

/-- Both parses have reached the end of the page, or they go on with the same command. -/
theorem Level.pull? (h : s.Level s') :
    (s.pull? = none ∧ s'.pull? = none) ∨
      ∃ c t t', s.pull? = some (c, t) ∧ s'.pull? = some (c, t') ∧ c ∈ s.cursor.rest ∧
        InStep s s' t t' := by
  have hnext : s'.cursor.next? = s.cursor.next? := by rw [h.cursor]
  cases hpull : s.cursor.next? with
  | none =>
    left
    simp only [ParseState.pull?, hnext, hpull, Option.map_none, and_self]
  | some pulled =>
    right
    obtain ⟨c, cursor⟩ := pulled
    have hs : s.pull? = some (c, { s with cursor }) := by
      rw [ParseState.pull?, hpull]
      rfl
    have hs' : s'.pull? = some (c, { s' with cursor }) := by
      rw [ParseState.pull?, hnext, hpull]
      rfl
    have hrest : s.cursor.rest = c :: cursor.rest := (eq_of_pull? hs).1
    refine ⟨c, _, _, hs, hs', ?_, ⟨h.arena, rfl⟩, ?_, [], rfl, rfl⟩
    · rw [hrest]
      exact List.mem_cons_self
    · rw [hrest]
      exact List.subset_cons_self ..

/-- A node is made in both arenas, or in neither. -/
theorem Level.append (h : s.Level s') (parent : Int) (c : Command) :
    Together Eq s s' (s.append parent c) (s'.append parent c) := by
  obtain ⟨arena, cursor, diagnostics, log, diagnostics', log', rfl, rfl⟩ := h.exists_eq
  simp only [ParseState.append]
  obtain ⟨e | id, made⟩ := arena.append parent c
  · exact .error ⟨⟨rfl, rfl⟩, List.Subset.refl _, [], rfl, rfl⟩
  · exact .ok rfl ⟨⟨rfl, rfl⟩, List.Subset.refl _, [], rfl, rfl⟩

variable {matching matching' : Matching} {page : List Command}

/-- Lines are joined in both parses, and the same of them are issues. -/
theorem Level.joinText (h : s.Level s') (id : Nat) (c : Command) (continuation : CodeSlot) :
    Together (Placement.Agrees matching matching' page) s s' (s.joinText id c continuation)
      (s'.joinText id c continuation) := by
  obtain ⟨arena, cursor, diagnostics, log, diagnostics', log', rfl, rfl⟩ := h.exists_eq
  have hrest := cursor.rest_takeRun_subset continuation
  simp only [ParseState.joinText, foldl_record, Command.joinLines_eq]
  obtain ⟨e | _, changed⟩ := arena.setCommand id (c.joined (cursor.takeRun continuation).1)
  · exact .error ⟨⟨rfl, rfl⟩, hrest, _, rfl, rfl⟩
  · exact .ok (.leaf id) ⟨⟨rfl, rfl⟩, hrest, _, rfl, rfl⟩

/-- Companions are kept in both parses. -/
theorem Level.addCompanions (h : s.Level s') (id : Nat) (entries : List Command) :
    Together Eq s s' (s.addCompanions id entries) (s'.addCompanions id entries) := by
  induction entries generalizing s s' with
  | nil => exact .ok rfl (.refl h)
  | cons c entries ih =>
    obtain ⟨arena, cursor, diagnostics, log, diagnostics', log', rfl, rfl⟩ := h.exists_eq
    simp only [ParseState.addCompanions]
    obtain ⟨e | _, changed⟩ := arena.addCompanion id c
    · exact .error ⟨⟨rfl, rfl⟩, List.Subset.refl _, [], rfl, rfl⟩
    · have hlevel : Level ⟨changed, cursor, diagnostics, log⟩
          ⟨changed, cursor, diagnostics', log'⟩ := ⟨rfl, rfl⟩
      have hstep : InStep ⟨arena, cursor, diagnostics, log⟩ ⟨arena, cursor, diagnostics', log'⟩
          ⟨changed, cursor, diagnostics, log⟩ ⟨changed, cursor, diagnostics', log'⟩ :=
        ⟨hlevel, List.Subset.refl _, [], rfl, rfl⟩
      exact (ih hlevel).of_inStep hstep

/-- Entries are kept in both parses. -/
theorem Level.keepEntries (h : s.Level s') (id : Nat) (continuation : CodeSlot) :
    Together (Placement.Agrees matching matching' page) s s' (s.keepEntries id continuation)
      (s'.keepEntries id continuation) := by
  obtain ⟨arena, cursor, diagnostics, log, diagnostics', log', rfl, rfl⟩ := h.exists_eq
  have hlevel : Level ⟨arena, (cursor.takeRun continuation).2, diagnostics, log⟩
      ⟨arena, (cursor.takeRun continuation).2, diagnostics', log'⟩ := ⟨rfl, rfl⟩
  have hstep : InStep ⟨arena, cursor, diagnostics, log⟩ ⟨arena, cursor, diagnostics', log'⟩
      ⟨arena, (cursor.takeRun continuation).2, diagnostics, log⟩
      ⟨arena, (cursor.takeRun continuation).2, diagnostics', log'⟩ :=
    ⟨hlevel, cursor.rest_takeRun_subset continuation, [], rfl, rfl⟩
  refine Together.of_inStep hstep ?_
  have hkept := hlevel.addCompanions id (cursor.takeRun continuation).1
  dsimp only [ParseState.keepEntries]
  revert hkept
  generalize ParseState.addCompanions ⟨arena, _, diagnostics, log⟩ id _ = r
  generalize ParseState.addCompanions ⟨arena, _, diagnostics', log'⟩ id _ = r'
  intro hkept
  cases hkept with
  | ok hvalue hstep' => exact .ok (.leaf id) hstep'
  | error hstep' => exact .error hstep'

/-- The same issue is kept in both parses. -/
theorem Level.record (h : s.Level s') (d : Diagnostic) : InStep s s' (s.record d) (s'.record d) :=
  ⟨⟨h.arena, h.cursor⟩, List.Subset.refl _, [d], rfl, rfl⟩

variable {db db' : Database}

/-- A command is placed in both parses in the same way when the databases say the same about it. -/
theorem Level.place (h : s.Level s') (parent : Int) {c : Command}
    (hkinds : KindsAgree matching matching' page (db.kind? c.code) (db'.kind? c.code)) :
    Together (Placement.Agrees matching matching' page) s s' (s.place db parent c)
      (s'.place db' parent c) := by
  unfold ParseState.place
  by_cases hpad : c.isSentinel = true
  · rw [if_pos hpad, if_pos hpad]
    exact .ok .skipped (.refl h)
  rw [if_neg hpad, if_neg hpad]
  have happended := h.append parent c
  generalize s.append parent c = r at happended ⊢
  generalize s'.append parent c = r' at happended ⊢
  cases happended with
  | error hstep => exact .error hstep
  | @ok id _ t t' hid hstep =>
    subst hid
    refine Together.of_inStep hstep ?_
    have hlevel := hstep.level
    dsimp only
    unfold Database.kind? at hkinds
    generalize db.get? c.code = d? at hkinds ⊢
    generalize db'.get? c.code = d?' at hkinds ⊢
    match d?, d?', hkinds with
    | none, none, .unknown =>
      rw [hlevel.cursor]
      exact .ok (.leaf id) (hlevel.record _)
    | some ⟨_, .plain _⟩, some ⟨_, .plain _⟩, .alone _ _ => exact .ok (.leaf id) (.refl hlevel)
    | some ⟨_, .plain _⟩, some ⟨_, .mark⟩, .alone _ _ => exact .ok (.leaf id) (.refl hlevel)
    | some ⟨_, .mark⟩, some ⟨_, .plain _⟩, .alone _ _ => exact .ok (.leaf id) (.refl hlevel)
    | some ⟨_, .mark⟩, some ⟨_, .mark⟩, .alone _ _ => exact .ok (.leaf id) (.refl hlevel)
    | some ⟨_, .scope k⟩, some ⟨_, .scope k'⟩, .scope hk =>
      rw [hlevel.cursor]
      exact .ok (.opened ⟨rfl, rfl, rfl, rfl, hk⟩) (.refl hlevel)
    | some ⟨_, .text continuation⟩, some ⟨_, .text _⟩, .text _ =>
      exact hlevel.joinText id c continuation
    | some ⟨_, .route continuation⟩, some ⟨_, .route _⟩, .route _ =>
      exact hlevel.keepEntries id continuation

/-- The same error ends both scopes when no terminator comes. -/
theorem Level.unterminated {scope scope' : Scope} (h : s.Level s')
    (hscope : scope.Agrees matching matching' page scope') :
    Together (α := Unit) Eq s s'
      (.error (.unterminated scope.opener scope.position scope.kind.terminator.code), s)
      (.error (.unterminated scope'.opener scope'.position scope'.kind.terminator.code), s') := by
  rw [hscope.opener, hscope.position, hscope.kind.terminator]
  exact .error (.refl h)

/-- What reading an open scope comes to in both parses, at any depth, when at most `length` commands
are still to come. -/
def FillsTogether (matching matching' : Matching) (page : List Command) (db db' : Database)
    (length : Nat) : Prop :=
  ∀ (room : Nat) (scope scope' : Scope) (s s' : ParseState),
    scope.Agrees matching matching' page scope' → s.Level s' → s.cursor.rest ⊆ page →
    Together Eq s s' (fillScope db matching length room scope s)
      (fillScope db' matching' length room scope' s')

section Fill

variable {length room : Nat} {scope scope' : Scope} {c : Command}

/-- Reading both scopes on after a delimiter. -/
theorem FillsTogether.of_branch (ih : FillsTogether matching matching' page db db' length)
    (hscope : scope.Agrees matching matching' page scope') (hc : c ∈ page)
    (hpull : s.pull? = some (c, t)) (hpull' : s'.pull? = some (c, t')) (h : t.Level t')
    (hrest : t.cursor.rest ⊆ page) (hterm : ¬scope.kind.terminator.code.holds c.code = true)
    (hbranch : (scope.kind.findBranch? matching c).isSome = true) :
    Together Eq t t' (fillScope db matching (length + 1) room scope s)
      (fillScope db' matching' (length + 1) room scope' s') := by
  simp only [fillScope, hpull, hpull', ← hscope.kind.terminator, ← hscope.kind.delimiters c hc,
    ← hscope.node, if_neg hterm, if_pos hbranch]
  have happended := h.append scope.node c
  generalize t.append scope.node c = r at happended ⊢
  generalize t'.append scope.node c = r' at happended ⊢
  cases happended with
  | error hstep => exact .error hstep
  | @ok arm arm' _ _ harm hstep =>
    have hrest' := List.Subset.trans hstep.rest hrest
    refine Together.of_inStep hstep (ih room _ _ _ _ ?_ hstep.level hrest')
    exact ⟨rfl, harm, hscope.opener, hscope.position, hscope.kind⟩

/-- Reading both scopes on after a command in one of their bodies. -/
theorem FillsTogether.of_neither (ih : FillsTogether matching matching' page db db' length)
    (hscope : scope.Agrees matching matching' page scope') (hc : c ∈ page)
    (hkinds : KindsAgree matching matching' page (db.kind? c.code) (db'.kind? c.code))
    (hpull : s.pull? = some (c, t)) (hpull' : s'.pull? = some (c, t')) (h : t.Level t')
    (hrest : t.cursor.rest ⊆ page) (hterm : ¬scope.kind.terminator.code.holds c.code = true)
    (hbranch : ¬(scope.kind.findBranch? matching c).isSome = true) :
    Together Eq t t' (fillScope db matching (length + 1) room scope s)
      (fillScope db' matching' (length + 1) room scope' s') := by
  simp only [fillScope, hpull, hpull', ← hscope.kind.terminator, ← hscope.kind.delimiters c hc,
    ← hscope.arm, if_neg hterm, if_neg hbranch]
  have hplaced := h.place scope.arm hkinds
  generalize t.place db scope.arm c = r at hplaced ⊢
  generalize t'.place db' scope.arm c = r' at hplaced ⊢
  cases hplaced with
  | error hstep => exact .error hstep
  | ok hplacement hstep =>
    refine Together.of_inStep hstep ?_
    have hrest₁ := List.Subset.trans hstep.rest hrest
    cases hplacement with
    | skipped => exact ih room _ _ _ _ hscope hstep.level hrest₁
    | leaf id => exact ih room _ _ _ _ hscope hstep.level hrest₁
    | @opened inner inner' hinner =>
      dsimp only
      cases room with
      | zero =>
        rw [hstep.level.cursor]
        exact .error (.refl hstep.level)
      | succ room =>
        dsimp only
        have hfilled := ih room _ _ _ _ hinner hstep.level hrest₁
        generalize fillScope db matching length room inner _ = r at hfilled ⊢
        generalize fillScope db' matching' length room inner' _ = r' at hfilled ⊢
        cases hfilled with
        | error hstep₁ => exact .error hstep₁
        | ok _ hstep₁ =>
          have hrest₂ := List.Subset.trans hstep₁.rest hrest₁
          exact (ih (room + 1) _ _ _ _ hscope hstep₁.level hrest₂).of_inStep hstep₁

end Fill

/-- Open scopes are read in step. The induction is on the commands still to come. -/
theorem fillsTogether (hdb : Database.Agrees matching matching' page db db') (length : Nat) :
    FillsTogether matching matching' page db db' length := by
  induction length with
  | zero =>
    intro room scope scope' s s' hscope h hrest
    exact h.unterminated hscope
  | succ length ih =>
    intro room scope scope' s s' hscope h hrest
    rcases h.pull? with ⟨hpull, hpull'⟩ | ⟨c, t, t', hpull, hpull', hc, hstep⟩
    · simp only [fillScope, hpull, hpull']
      exact h.unterminated hscope
    · have hc : c ∈ page := hrest hc
      have hrest₁ := List.Subset.trans hstep.rest hrest
      refine Together.of_inStep hstep ?_
      by_cases hterm : scope.kind.terminator.code.holds c.code = true
      · simp only [fillScope, hpull, hpull', ← hscope.kind.terminator, if_pos hterm]
        exact .ok rfl (.refl hstep.level)
      · by_cases hbranch : (scope.kind.findBranch? matching c).isSome = true
        · exact ih.of_branch hscope hc hpull hpull' hstep.level hrest₁ hterm hbranch
        · exact ih.of_neither hscope hc (hdb c hc) hpull hpull' hstep.level hrest₁ hterm hbranch

/-- A command is placed in both parses with all that it owns. -/
theorem parseCommand_together (hdb : Database.Agrees matching matching' page db db') (room : Nat)
    (h : s.Level s') (hrest : s.cursor.rest ⊆ page) (parent : Int) {c : Command} (hc : c ∈ page) :
    Together Eq s s' (parseCommand db matching room s parent c)
      (parseCommand db' matching' room s' parent c) := by
  unfold parseCommand
  have hplaced := h.place parent (hdb c hc)
  generalize s.place db parent c = r at hplaced ⊢
  generalize s'.place db' parent c = r' at hplaced ⊢
  cases hplaced with
  | error hstep => exact .error hstep
  | @ok _ _ t t' hplacement hstep =>
    refine Together.of_inStep hstep ?_
    cases hplacement with
    | skipped => exact .ok rfl (.refl hstep.level)
    | leaf id => exact .ok rfl (.refl hstep.level)
    | @opened scope scope' hscope =>
      dsimp only
      rw [← hstep.level.cursor, ← hscope.node]
      cases room with
      | zero => exact .error (.refl hstep.level)
      | succ room =>
        dsimp only
        have hrest₁ := List.Subset.trans hstep.rest hrest
        have hfilled :=
          fillsTogether hdb t.cursor.rest.length room _ _ _ _ hscope hstep.level hrest₁
        generalize fillScope db matching _ room scope t = r at hfilled ⊢
        generalize fillScope db' matching' _ room scope' t' = r' at hfilled ⊢
        cases hfilled with
        | error hstep₁ => exact .error hstep₁
        | ok _ hstep₁ => exact .ok rfl hstep₁

/-- All commands still to come are parsed in step. -/
theorem parseAll_together (hdb : Database.Agrees matching matching' page db db') (room : Nat)
    (parent : Int) (length : Nat) (ids : List (Option Nat)) (h : s.Level s')
    (hrest : s.cursor.rest ⊆ page) :
    Together Eq s s' (parseAll db matching room parent length ids s)
      (parseAll db' matching' room parent length ids s') := by
  induction length generalizing ids s s' with
  | zero => exact .ok rfl (.refl h)
  | succ length ih =>
    rcases h.pull? with ⟨hpull, hpull'⟩ | ⟨c, t, t', hpull, hpull', hc, hstep⟩
    · simp only [parseAll, hpull, hpull']
      exact .ok rfl (.refl h)
    · simp only [parseAll, hpull, hpull']
      refine Together.of_inStep hstep ?_
      have hrest₁ := List.Subset.trans hstep.rest hrest
      have hparsed := parseCommand_together hdb room hstep.level hrest₁ parent (hrest hc)
      generalize parseCommand db matching room t parent c = r at hparsed ⊢
      generalize parseCommand db' matching' room t' parent c = r' at hparsed ⊢
      cases hparsed with
      | error hstep₁ => exact .error hstep₁
      | ok hid hstep₁ =>
        subst hid
        have hrest₂ := List.Subset.trans hstep₁.rest hrest₁
        exact (ih _ hstep₁.level hrest₂).of_inStep hstep₁

/-- Parses of the same page with databases that agree read the rest of it in step. -/
theorem parseRest_together (hdb : Database.Agrees matching matching' page db db') (room : Nat)
    (parent : Int) (h : s.Level s') (hrest : s.cursor.rest ⊆ page) :
    Together Eq s s' (s.parseRest db matching room parent)
      (s'.parseRest db' matching' room parent) := by
  unfold parseRest
  rw [← h.cursor]
  have hparsed := parseAll_together hdb room parent s.cursor.rest.length [] h hrest
  generalize parseAll db matching room parent _ [] s = r at hparsed ⊢
  generalize parseAll db' matching' room parent _ [] s' = r' at hparsed ⊢
  cases hparsed with
  | error hstep => exact .error hstep
  | ok hids hstep => exact .ok (congrArg List.reverse hids) hstep

end ParseState

section Pages

variable {matching matching' : Matching} {page : List Command} {db db' : Database}

/-- Databases that say the same about a page parse it to the same tree or the same error, and what
they add to the issues that there were is the same. -/
theorem parsePageWithin_together (hdb : Database.Agrees matching matching' page db db') (room : Nat)
    (diagnostics diagnostics' : Diagnostics) (log log' : Array LogRecord) :
    let r := parsePageWithin room db matching diagnostics log page
    let r' := parsePageWithin room db' matching' diagnostics' log' page
    r.outcome = r'.outcome ∧
      ∃ issues, r.diagnostics = (Journal.addAll ⟨diagnostics, log⟩ issues).diagnostics ∧
        r'.diagnostics = (Journal.addAll ⟨diagnostics', log'⟩ issues).diagnostics := by
  have hlevel : (ParseState.start diagnostics log page).Level (.start diagnostics' log' page) :=
    ⟨rfl, rfl⟩
  have hparsed := ParseState.parseRest_together hdb room Tree.empty.root hlevel (List.Subset.refl _)
  simp only [parsePageWithin]
  rw [show (⟨Tree.empty.arena, .ofList page, diagnostics, log⟩ : ParseState) =
    .start diagnostics log page from rfl, show (⟨Tree.empty.arena, .ofList page, diagnostics',
    log'⟩ : ParseState) = .start diagnostics' log' page from rfl]
  generalize (ParseState.start diagnostics log page).parseRest db matching room _ = r at hparsed ⊢
  generalize (ParseState.start diagnostics' log' page).parseRest db' matching' room _ = r'
    at hparsed ⊢
  cases hparsed with
  | error hstep =>
    obtain ⟨issues, hissues, hissues'⟩ := hstep.issues
    exact ⟨rfl, issues, congrArg Journal.diagnostics hissues, congrArg Journal.diagnostics hissues'⟩
  | ok hvalue hstep =>
    obtain ⟨issues, hissues, hissues'⟩ := hstep.issues
    refine ⟨?_, issues, congrArg Journal.diagnostics hissues, congrArg Journal.diagnostics hissues'⟩
    dsimp only
    rw [hstep.level.arena]

/-- Databases that say the same about a page parse it in the same way, down to the log. -/
theorem parsePageWithin_eq_of_agrees (hdb : Database.Agrees matching matching' page db db')
    (room : Nat) (diagnostics : Diagnostics) (log : Array LogRecord) :
    parsePageWithin room db matching diagnostics log page =
      parsePageWithin room db' matching' diagnostics log page := by
  have hlevel : (ParseState.start diagnostics log page).Level (.start diagnostics log page) :=
    ⟨rfl, rfl⟩
  have hparsed := ParseState.parseRest_together hdb room Tree.empty.root hlevel (List.Subset.refl _)
  have hrest := hparsed.eq
  unfold ParseState.start at hrest
  unfold parsePageWithin
  dsimp only at hrest ⊢
  rw [hrest]

end Pages

end PageOutline
