import PageOutline.Proofs.Sweep.Reading

/-!
# The parser as a sweep

Parsing by recursive descent gives what one sweep over the page gives: the same tree, the same
issues and log and the same error. The only difference is the bound on nesting: the parser fails
exactly when the sweep has more scopes open at once than the bound allows.
-/

namespace PageOutline

namespace ParseState

/-- The issues and the log of a parse. -/
def journal (s : ParseState) : Journal := ⟨s.diagnostics, s.log⟩

/-- The sweep that stands where a parse stands, with nothing pending. -/
def sweep (s : ParseState) (root : Nat) (scopes : List Scope) : Sweep :=
  ⟨root, s.arena, scopes, none, s.cursor.position, s.journal⟩

/-- Recording issues touches nothing but the collector and the log. -/
theorem foldl_record (s : ParseState) (ds : List Diagnostic) :
    ds.foldl record s =
      ⟨s.arena, s.cursor, (s.journal.addAll ds).diagnostics, (s.journal.addAll ds).log⟩ := by
  induction ds generalizing s with
  | nil => rfl
  | cons d ds ih => rw [List.foldl_cons, ih]; rfl

/-- Appending below a node that there is makes the next node. -/
theorem append_eq {s : ParseState} {parent : Nat} (h : parent < s.arena.size) (c : Command) :
    s.append parent c = (.ok s.arena.size, { s with arena := s.arena.extend parent c }) := by
  simp only [append, Arena.append_eq h]

/-- At a node that there is, the run of its lines is joined to the text or reported. -/
theorem joinText_eq {s : ParseState} {id : Nat} {c : Command} (h : id < s.arena.size)
    (continuation : CodeSlot) :
    let (lines, after) := s.cursor.takeRun continuation
    let journal := s.journal.addAll (malformedLines c (s.cursor.position + 1) lines)
    s.joinText id c continuation =
      (.ok (.leaf id),
        ⟨s.arena.withCommand id (c.joined lines), after, journal.diagnostics, journal.log⟩) := by
  simp only [joinText, Command.joinLines_eq, foldl_record, Arena.setCommand_eq h]
  rfl

/-- At a node that there is, the entries become its companions. -/
theorem addCompanions_eq {s : ParseState} {id : Nat} (h : id < s.arena.size)
    (entries : List Command) :
    s.addCompanions id entries =
      (.ok (), { s with arena := s.arena.withCompanions id entries }) := by
  induction entries generalizing s with
  | nil => simp [addCompanions]
  | cons c entries ih =>
    simp only [addCompanions, Arena.addCompanion_eq h]
    rw [ih (by simpa using h)]
    simp only [Arena.withCompanions_withCompanions, List.singleton_append]

/-- At a node that there is, the run of its entries is kept as its companions. -/
theorem keepEntries_eq {s : ParseState} {id : Nat} (h : id < s.arena.size)
    (continuation : CodeSlot) :
    let (entries, after) := s.cursor.takeRun continuation
    s.keepEntries id continuation =
      (.ok (.leaf id),
        { s with arena := s.arena.withCompanions id entries, cursor := after }) := by
  dsimp only [keepEntries]
  rw [addCompanions_eq (by exact h)]

variable {db : Database} {matching : Matching} {bound root : Nat} {scopes : List Scope}

/-- Joining the lines after a text command is what a sweep does with its node as the absorber. -/
theorem exists_joinText (db : Database) (matching : Matching) {s : ParseState} {id : Nat}
    {c : Command} (hid : id < s.arena.size) (hc : s.arena.commandAt id = c)
    (hbound : scopes.length ≤ bound) (continuation : CodeSlot) :
    ∃ s', s.joinText id c continuation = (.ok (.leaf id), s') ∧
      s'.arena.size = s.arena.size ∧ s'.cursor.rest.length ≤ s.cursor.rest.length ∧
      Sweep.Leads db matching bound
        { s.sweep root scopes with absorber? := some (.text id continuation) } s.cursor.rest
        (s'.sweep root scopes) s'.cursor.rest := by
  refine ⟨_, joinText_eq hid continuation, by simp, s.cursor.length_takeRun_rest_le _, ?_⟩
  apply Sweep.Leads.of_run hbound rfl (s.cursor.takeRun_append_rest continuation)
    (fun _ => Cursor.holds_of_mem_takeRun) (s.cursor.not_holds_head_takeRun _)
  rw [Sweep.run_text _ rfl hid fun _ => Cursor.holds_of_mem_takeRun]
  rw [← hc]
  rfl

/-- Keeping the entries after a route is what a sweep does with its node as the absorber. -/
theorem exists_keepEntries (db : Database) (matching : Matching) {s : ParseState} {id : Nat}
    (hid : id < s.arena.size) (hbound : scopes.length ≤ bound) (continuation : CodeSlot) :
    ∃ s', s.keepEntries id continuation = (.ok (.leaf id), s') ∧
      s'.arena.size = s.arena.size ∧ s'.cursor.rest.length ≤ s.cursor.rest.length ∧
      Sweep.Leads db matching bound
        { s.sweep root scopes with absorber? := some (.route id continuation) } s.cursor.rest
        (s'.sweep root scopes) s'.cursor.rest := by
  refine ⟨_, keepEntries_eq hid continuation, by simp, s.cursor.length_takeRun_rest_le _, ?_⟩
  apply Sweep.Leads.of_run hbound rfl (s.cursor.takeRun_append_rest continuation)
    (fun _ => Cursor.holds_of_mem_takeRun) (s.cursor.not_holds_head_takeRun _)
  rw [Sweep.run_route _ rfl fun _ => Cursor.holds_of_mem_takeRun]
  rfl

/-- What placing a command comes to. `t` is the sweep that stands where the parse stands. -/
theorem place_cases (db : Database) (matching : Matching) {s : ParseState} {t : Sweep}
    (ht : t = s.sweep root scopes) (hparent : t.parent < s.arena.size)
    (hbound : scopes.length ≤ bound) (c : Command) :
    (s.place db t.parent c = (.ok .skipped, s) ∧ t.place db c = t) ∨
    (∃ id s', s.place db t.parent c = (.ok (.leaf id), s') ∧
      s.arena.size ≤ s'.arena.size ∧ s'.cursor.rest.length ≤ s.cursor.rest.length ∧
      Sweep.Leads db matching bound (t.place db c) s.cursor.rest
        (s'.sweep root scopes) s'.cursor.rest) ∨
    (∃ scope s', s.place db t.parent c = (.ok (.opened scope), s') ∧
      s.arena.size ≤ s'.arena.size ∧ s'.cursor = s.cursor ∧
      scope.node < s'.arena.size ∧ scope.arm < s'.arena.size ∧
      t.place db c = s'.sweep root (scope :: scopes)) := by
  by_cases hpad : c.isSentinel
  · left
    simp [place, Sweep.place, hpad]
  · right
    have hid : s.arena.size < (s.arena.extend t.parent c).size := by simp
    have hsize : s.arena.size ≤ (s.arena.extend t.parent c).size := by simp
    simp only [place, Sweep.place, if_neg hpad, append_eq hparent]
    subst ht
    cases hd : db.get? c.code with
    | none =>
      left
      refine ⟨_, _, rfl, hsize, Nat.le_refl _, ?_⟩
      exact Sweep.Leads.refl ..
    | some d =>
      simp only
      cases hkind : d.kind with
      | scope kind =>
        right
        exact ⟨_, _, rfl, hsize, rfl, hid, hid, rfl⟩
      | text continuation =>
        left
        obtain ⟨s', hjoin, hsize', hless, hleads⟩ := exists_joinText db matching
          (s := { s with arena := s.arena.extend _ c }) hid (Arena.commandAt_extend ..) hbound
          continuation
        rw [← hsize'] at hsize
        exact ⟨_, s', hjoin, hsize, hless, hleads⟩
      | route continuation =>
        left
        obtain ⟨s', hkeep, hsize', hless, hleads⟩ := exists_keepEntries db matching
          (s := { s with arena := s.arena.extend _ c }) hid hbound continuation
        rw [← hsize'] at hsize
        exact ⟨_, s', hkeep, hsize, hless, hleads⟩
      | plain parameters =>
        left
        exact ⟨_, _, rfl, hsize, Nat.le_refl _, Sweep.Leads.refl ..⟩
      | mark =>
        left
        exact ⟨_, _, rfl, hsize, Nat.le_refl _, Sweep.Leads.refl ..⟩

/-- What a step of the parser comes to, for a sweep `t` that stands where it began with `cs` to come
and `size` nodes made: reading on from where it ended with the scopes that are then open, or a
failure. -/
def Reads {α : Type} (db : Database) (matching : Matching) (bound root size : Nat)
    (scopes : List Scope) (t : Sweep) (cs : List Command) :
    Except PageError α × ParseState → Prop
  | (.ok _, s) =>
    size ≤ s.arena.size ∧ s.cursor.rest.length ≤ cs.length ∧
      Sweep.Leads db matching bound t cs (s.sweep root scopes) s.cursor.rest
  | (.error e, s) => Sweep.Fails db matching bound t cs e s.arena s.journal

/-- A step of the parser may be described from an earlier place. -/
theorem Reads.of_leads {α : Type} {size size' : Nat} {t u : Sweep} {cs ds : List Command}
    {r : Except PageError α × ParseState} (hsize : size ≤ size') (hlength : ds.length ≤ cs.length)
    (h : Sweep.Leads db matching bound t cs u ds)
    (hreads : Reads db matching bound root size' scopes u ds r) :
    Reads db matching bound root size scopes t cs r := by
  obtain ⟨e | a, s⟩ := r
  · exact Sweep.Fails.of_leads h hreads
  · obtain ⟨hsize', hlength', hleads⟩ := hreads
    exact ⟨Nat.le_trans hsize hsize', Nat.le_trans hlength' hlength, h.trans hleads⟩

/-- Where there is nothing to pull the page is at its end. -/
theorem rest_eq_nil_of_pull? {s : ParseState} (h : s.pull? = none) : s.cursor.rest = [] := by
  obtain ⟨arena, ⟨rest, position⟩, diagnostics, log⟩ := s
  cases rest with
  | nil => rfl
  | cons c rest => simp [pull?, Cursor.next?] at h

/-- Pulling takes the first command that is left and changes nothing else. -/
theorem eq_of_pull? {s s₁ : ParseState} {c : Command} (h : s.pull? = some (c, s₁)) :
    s.cursor.rest = c :: s₁.cursor.rest ∧
      s₁ = { s with cursor := ⟨s₁.cursor.rest, s.cursor.position + 1⟩ } := by
  obtain ⟨arena, ⟨rest, position⟩, diagnostics, log⟩ := s
  cases rest with
  | nil => simp [pull?, Cursor.next?] at h
  | cons d rest =>
    simp only [pull?, Cursor.next?, Option.map_some, Option.some.injEq, Prod.mk.injEq] at h
    obtain ⟨rfl, rfl⟩ := h
    exact ⟨rfl, rfl⟩

/-- Pulling a command is one step of the sweep. -/
theorem leads_of_pull? (db : Database) (matching : Matching) (root : Nat) {s s₁ : ParseState}
    {c : Command} (h : s.pull? = some (c, s₁)) (hbound : scopes.length ≤ bound) :
    Sweep.Leads db matching bound (s.sweep root scopes) s.cursor.rest
      ((s₁.sweep root scopes).accept db matching c) s₁.cursor.rest := by
  obtain ⟨hrest, hs₁⟩ := eq_of_pull? h
  rw [hrest]
  have hstep := Sweep.Leads.step db matching (s := s.sweep root scopes) hbound c s₁.cursor.rest
  rw [Sweep.step_of_none rfl] at hstep
  rw [hs₁]
  exact hstep

/-- A page that ends within a scope fails there. -/
theorem reads_of_rest_eq_nil {s : ParseState} {scope : Scope} (h : s.cursor.rest = [])
    (hopen : (scope :: scopes).length ≤ bound) :
    Reads (α := Unit) db matching bound root s.arena.size scopes (s.sweep root (scope :: scopes))
      s.cursor.rest
      (.error (.unterminated scope.opener scope.position scope.kind.terminator.code), s) := by
  rw [h]
  exact .unterminated hopen rfl rfl rfl

/-- A step of the parser may be described from before a command is pulled. -/
theorem Reads.of_pull? {α : Type} {s s₁ : ParseState} {c : Command} {outer : List Scope}
    {r : Except PageError α × ParseState} (hpull : s.pull? = some (c, s₁))
    (hopen : outer.length ≤ bound)
    (h : Reads db matching bound root s₁.arena.size scopes
      ((s₁.sweep root outer).accept db matching c) s₁.cursor.rest r) :
    Reads db matching bound root s.arena.size scopes (s.sweep root outer) s.cursor.rest r := by
  obtain ⟨hrest, hs₁⟩ := eq_of_pull? hpull
  have harena : s.arena.size = s₁.arena.size := by rw [hs₁]
  have hshorter : s₁.cursor.rest.length ≤ s.cursor.rest.length := by simp [hrest]
  exact h.of_leads (Nat.le_of_eq harena) hshorter (leads_of_pull? db matching root hpull hopen)

/-- What reading an open scope comes to, at any depth, when at most `length` commands are still to
come: it is closed and the scopes around it are left, or the page fails. An inner scope is read
within the same bound, as it has one scope more around it and room for one less. -/
def FillReads (db : Database) (matching : Matching) (bound root length : Nat) : Prop :=
  ∀ (room : Nat) (scopes : List Scope) (scope : Scope) (s : ParseState),
    s.cursor.rest.length ≤ length → scope.node < s.arena.size → scope.arm < s.arena.size →
    bound = scopes.length + 1 + room →
    Reads db matching bound root s.arena.size scopes (s.sweep root (scope :: scopes))
      s.cursor.rest (fillScope db matching length room scope s)

section Fill

variable {length room : Nat} {scope : Scope} {s s₁ : ParseState} {c : Command}

/-- Reading a scope on after a delimiter. -/
theorem FillReads.of_branch (ih : FillReads db matching bound root length)
    (hpull : s.pull? = some (c, s₁)) (hlength : s₁.cursor.rest.length ≤ length)
    (hnode : scope.node < s₁.arena.size) (hbound : bound = scopes.length + 1 + room)
    (hterm : ¬scope.kind.terminator.code.holds c.code = true)
    (hbranch : (scope.kind.findBranch? matching c).isSome = true) :
    Reads db matching bound root s₁.arena.size scopes
      ((s₁.sweep root (scope :: scopes)).accept db matching c) s₁.cursor.rest
      (fillScope db matching (length + 1) room scope s) := by
  rw [Sweep.accept_of_branch rfl hterm hbranch]
  simp only [fillScope, hpull, if_neg hterm, if_pos hbranch, append_eq hnode]
  have hsize : (s₁.arena.extend scope.node c).size = s₁.arena.size + 1 := Arena.size_extend ..
  have hread := ih room scopes { scope with arm := s₁.arena.size }
    { s₁ with arena := s₁.arena.extend scope.node c } hlength
    (by simp only [hsize]; omega) (by simp only [hsize]; omega) hbound
  exact Reads.of_leads (by simp only [hsize]; omega) (Nat.le_refl _) (Sweep.Leads.refl ..) hread

/-- Reading a scope on after a command in one of its bodies. -/
theorem FillReads.of_neither (ih : FillReads db matching bound root length)
    (hpull : s.pull? = some (c, s₁)) (hlength : s₁.cursor.rest.length ≤ length)
    (hnode : scope.node < s₁.arena.size) (harm : scope.arm < s₁.arena.size)
    (hbound : bound = scopes.length + 1 + room)
    (hterm : ¬scope.kind.terminator.code.holds c.code = true)
    (hbranch : ¬(scope.kind.findBranch? matching c).isSome = true) :
    Reads db matching bound root s₁.arena.size scopes
      ((s₁.sweep root (scope :: scopes)).accept db matching c) s₁.cursor.rest
      (fillScope db matching (length + 1) room scope s) := by
  rw [Sweep.accept_of_neither rfl hterm hbranch]
  simp only [fillScope, hpull, if_neg hterm, if_neg hbranch]
  have hopen : (scope :: scopes).length ≤ bound := by simp only [List.length_cons]; omega
  have hcases := place_cases db matching (t := s₁.sweep root (scope :: scopes)) rfl harm hopen c
  rw [show (s₁.sweep root (scope :: scopes)).parent = scope.arm from rfl] at hcases
  rcases hcases with ⟨hplace, heq⟩ | ⟨id, s₂, hplace, hsize, hless, hleads⟩ |
    ⟨inner, s₂, hplace, hsize, hcursor, hinner, hinner', heq⟩
  · rw [hplace, heq]
    exact ih room scopes scope s₁ hlength hnode harm hbound
  · rw [hplace]
    exact Reads.of_leads hsize hless hleads
      (ih room scopes scope s₂ (by omega) (by omega) (by omega) hbound)
  · rw [hplace, heq, ← hcursor]
    rw [← hcursor] at hlength
    cases room with
    | zero =>
      refine Sweep.Fails.of_lt_length ?_ _ _ _
      simp only [sweep, List.length_cons]
      omega
    | succ room =>
      have hread : Reads db matching bound root s₂.arena.size (scope :: scopes)
          (s₂.sweep root (inner :: scope :: scopes)) s₂.cursor.rest
          (fillScope db matching length room inner s₂) :=
        ih room _ inner s₂ hlength hinner hinner' (by simp only [List.length_cons]; omega)
      dsimp only
      generalize fillScope db matching length room inner s₂ = r at hread ⊢
      obtain ⟨e | _, s₃⟩ := r
      · exact hread
      · obtain ⟨hsize₃, hless₃, hleads₃⟩ := hread
        exact Reads.of_leads (by omega) hless₃ hleads₃
          (ih (room + 1) scopes scope s₃ (by omega) (by omega) (by omega) hbound)

end Fill

/-- Open scopes are read as a sweep reads them. The induction is on the commands still to come. -/
theorem fillReads (db : Database) (matching : Matching) (bound root length : Nat) :
    FillReads db matching bound root length := by
  induction length with
  | zero =>
    intro room scopes scope s hlength hnode harm hbound
    have hopen : (scope :: scopes).length ≤ bound := by simp only [List.length_cons]; omega
    exact reads_of_rest_eq_nil (by simpa using hlength) hopen
  | succ length ih =>
    intro room scopes scope s hlength hnode harm hbound
    have hopen : (scope :: scopes).length ≤ bound := by simp only [List.length_cons]; omega
    cases hpull : s.pull? with
    | none =>
      rw [fillScope, hpull]
      exact reads_of_rest_eq_nil (rest_eq_nil_of_pull? hpull) hopen
    | some pulled =>
      obtain ⟨c, s₁⟩ := pulled
      refine Reads.of_pull? hpull hopen ?_
      obtain ⟨hrest, hs₁⟩ := eq_of_pull? hpull
      have harena : s₁.arena = s.arena := by rw [hs₁]
      rw [← harena] at hnode harm
      rw [hrest, List.length_cons] at hlength
      by_cases hterm : scope.kind.terminator.code.holds c.code = true
      · rw [Sweep.accept_of_terminator rfl hterm]
        simp only [fillScope, hpull, if_pos hterm]
        exact ⟨Nat.le_refl _, Nat.le_refl _, Sweep.Leads.refl ..⟩
      · by_cases hbranch : (scope.kind.findBranch? matching c).isSome = true
        · exact ih.of_branch hpull (by omega) hnode hbound hterm hbranch
        · exact ih.of_neither hpull (by omega) hnode harm hbound hterm hbranch

/-- What placing a command with all that it owns comes to. -/
theorem parseCommand_reads {s : ParseState} {room : Nat}
    (hparent : (s.sweep root scopes).parent < s.arena.size) (hbound : bound = scopes.length + room)
    (c : Command) :
    Reads db matching bound root s.arena.size scopes ((s.sweep root scopes).place db c)
      s.cursor.rest (parseCommand db matching room s (s.sweep root scopes).parent c) := by
  unfold parseCommand
  have hscopes : scopes.length ≤ bound := by omega
  rcases place_cases db matching rfl hparent hscopes c with
    ⟨hplace, heq⟩ | ⟨id, s₂, hplace, hsize, hless, hleads⟩ |
    ⟨scope, s₂, hplace, hsize, hcursor, hnode, harm, heq⟩
  · rw [hplace, heq]
    exact ⟨Nat.le_refl _, Nat.le_refl _, Sweep.Leads.refl ..⟩
  · rw [hplace]
    exact ⟨hsize, hless, hleads⟩
  · rw [hplace, heq, ← hcursor]
    cases room with
    | zero =>
      refine Sweep.Fails.of_lt_length ?_ _ _ _
      simp only [sweep, List.length_cons]
      omega
    | succ room =>
      have hread : Reads db matching bound root s₂.arena.size scopes
          (s₂.sweep root (scope :: scopes)) s₂.cursor.rest
          (fillScope db matching s₂.cursor.rest.length room scope s₂) :=
        fillReads db matching bound root _ room scopes scope s₂ (Nat.le_refl _) hnode harm
          (by omega)
      dsimp only
      generalize fillScope db matching s₂.cursor.rest.length room scope s₂ = r at hread ⊢
      obtain ⟨e | _, s₃⟩ := r
      · exact hread
      · obtain ⟨hsize₃, hless₃, hleads₃⟩ := hread
        exact ⟨by omega, hless₃, hleads₃⟩

/-- What parsing everything still to come under the root comes to. -/
theorem parseAll_reads (db : Database) (matching : Matching) (bound length : Nat)
    (ids : List (Option Nat)) (s : ParseState) (hlength : s.cursor.rest.length ≤ length)
    (hroot : root < s.arena.size) :
    match parseAll db matching bound root length ids s with
    | (.ok _, s') =>
      s'.cursor.rest = [] ∧
        Sweep.Leads db matching bound (s.sweep root []) s.cursor.rest (s'.sweep root []) []
    | (.error e, s') =>
      Sweep.Fails db matching bound (s.sweep root []) s.cursor.rest e s'.arena s'.journal := by
  induction length generalizing ids s with
  | zero =>
    have hrest : s.cursor.rest = [] := by simpa using hlength
    rw [parseAll, hrest]
    exact ⟨hrest, Sweep.Leads.refl ..⟩
  | succ length ih =>
    cases hpull : s.pull? with
    | none =>
      have hrest := rest_eq_nil_of_pull? hpull
      rw [parseAll, hpull, hrest]
      exact ⟨hrest, Sweep.Leads.refl ..⟩
    | some pulled =>
      obtain ⟨c, s₁⟩ := pulled
      have hnone : ([] : List Scope).length ≤ bound := Nat.zero_le _
      have hstep := leads_of_pull? db matching root hpull hnone
      rw [Sweep.accept_of_nil rfl] at hstep
      obtain ⟨hrest, hs₁⟩ := eq_of_pull? hpull
      have harena : s₁.arena = s.arena := by rw [hs₁]
      rw [← harena] at hroot
      have hparent : (s₁.sweep root []).parent < s₁.arena.size := hroot
      have hread : Reads db matching bound root s₁.arena.size [] ((s₁.sweep root []).place db c)
          s₁.cursor.rest (parseCommand db matching bound s₁ (s₁.sweep root []).parent c) :=
        parseCommand_reads hparent (by simp) c
      simp only [parseAll, hpull]
      rw [show (s₁.sweep root []).parent = root from rfl] at hread
      generalize parseCommand db matching bound s₁ root c = r at hread ⊢
      obtain ⟨e | id?, s₂⟩ := r
      · exact Sweep.Fails.of_leads hstep hread
      · obtain ⟨hsize, hless, hleads⟩ := hread
        have hlength₂ : s₂.cursor.rest.length ≤ length := by
          rw [hrest, List.length_cons] at hlength
          omega
        have hrec := ih (id? :: ids) s₂ hlength₂ (by omega)
        dsimp only
        generalize parseAll db matching bound root length (id? :: ids) s₂ = r at hrec ⊢
        obtain ⟨e | ids', s₃⟩ := r
        · exact Sweep.Fails.of_leads (hstep.trans hleads) hrec
        · exact ⟨hrec.1, (hstep.trans hleads).trans hrec.2⟩

/-- The state before the first command of a page is read. -/
def start (diagnostics : Diagnostics) (log : Array LogRecord) (page : List Command) : ParseState :=
  ⟨Tree.empty.arena, .ofList page, diagnostics, log⟩

end ParseState

variable (db : Database) (matching : Matching) (room : Nat) (diagnostics : Diagnostics)
  (log : Array LogRecord) (page : List Command)

/-- The parser stops where a sweep over the page stops, unless the page nests too deep. -/
theorem ParseState.parseRest_cases :
    let s := Sweep.start diagnostics log
    let r := (ParseState.start diagnostics log page).parseRest db matching room Tree.empty.root
    (s.peak db matching page ≤ room ∧
        match r with
        | (.ok _, s') => (s.run db matching page).release = s'.sweep Tree.empty.root []
        | (.error e, s') => (s.run db matching page).failure? = some e ∧
            (s.run db matching page).arena = s'.arena ∧
            (s.run db matching page).journal = s'.journal) ∨
      (room < s.peak db matching page ∧ ∃ position, r.1 = .error (.nestingTooDeep position)) := by
  let s := ParseState.start diagnostics log page
  have hroot : Tree.empty.root < s.arena.size := Nat.zero_lt_one
  have hread := ParseState.parseAll_reads db matching room s.cursor.rest.length [] s (Nat.le_refl _)
    hroot
  rw [show s.sweep Tree.empty.root [] = Sweep.start diagnostics log from rfl] at hread
  simp only [parseRest]
  generalize parseAll db matching room Tree.empty.root s.cursor.rest.length [] s = r at hread ⊢
  rw [show s.cursor.rest = page from rfl] at hread
  obtain ⟨e | ids, s'⟩ := r
  · cases hread with
    | tooDeep position he hpeak => exact Or.inr ⟨hpeak, position, by rw [he]⟩
    | unterminated hpeak he harena hjournal => exact Or.inl ⟨hpeak, he, harena, hjournal⟩
  · obtain ⟨-, hrun, hpeak⟩ := hread
    exact Or.inl ⟨hpeak.mpr (Nat.zero_le _), hrun⟩

/-- A page is parsed as a sweep reads it, unless it nests too deep. -/
theorem parsePageWithin_cases :
    let s := Sweep.start diagnostics log
    let r := parsePageWithin room db matching diagnostics log page
    (s.peak db matching page ≤ room ∧ r = (s.run db matching page).result) ∨
      (room < s.peak db matching page ∧
        ∃ position, r.outcome = .error (.nestingTooDeep position)) := by
  have hcases := ParseState.parseRest_cases db matching room diagnostics log page
  simp only [parsePageWithin]
  rw [show (⟨Tree.empty.arena, .ofList page, diagnostics, log⟩ : ParseState) =
    .start diagnostics log page from rfl]
  generalize (ParseState.start diagnostics log page).parseRest db matching room Tree.empty.root = r
    at hcases ⊢
  obtain ⟨e | ids, s'⟩ := r
  · rcases hcases with ⟨hpeak, he, -, hjournal⟩ | ⟨hpeak, position, hdeep⟩
    · refine Or.inl ⟨hpeak, ?_⟩
      rw [Sweep.result, he, hjournal]
      rfl
    · cases hdeep
      exact Or.inr ⟨hpeak, position, rfl⟩
  · rcases hcases with ⟨hpeak, hrun⟩ | ⟨-, position, hdeep⟩
    · refine Or.inl ⟨hpeak, ?_⟩
      rw [← Sweep.result_release, hrun]
      rfl
    · cases hdeep

/-- Descending into scopes and one sweep over the page come to the same: tree, issues, log and
error. The parser differs in nothing but its bound on nesting, which no page reaches that is not
longer than it. -/
theorem parsePageWithin_eq_sweep :
    (Sweep.start diagnostics log).peak db matching page ≤ page.length ∧
      if (Sweep.start diagnostics log).peak db matching page ≤ room then
        parsePageWithin room db matching diagnostics log page =
          ((Sweep.start diagnostics log).run db matching page).result
      else
        ∃ position, (parsePageWithin room db matching diagnostics log page).outcome =
          .error (.nestingTooDeep position) := by
  have hpeak := (Sweep.start diagnostics log).peak_le db matching page
  rw [show (Sweep.start diagnostics log).scopes.length = 0 from rfl, Nat.zero_add] at hpeak
  refine ⟨hpeak, ?_⟩
  rcases parsePageWithin_cases db matching room diagnostics log page with
    ⟨hle, hresult⟩ | ⟨hlt, hdeep⟩
  · rw [if_pos hle]
    exact hresult
  · rw [if_neg (Nat.not_le.2 hlt)]
    exact hdeep

end PageOutline
