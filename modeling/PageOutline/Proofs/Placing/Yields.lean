import PageOutline.Proofs.Placing.Items
import PageOutline.Proofs.Sweep.Refinement

/-!
# What the parser makes of a command

What the parser makes of a command is decided by the page alone: the forest below the node that the
command is placed under, the issues, the place where the parser stops and what it gives there. The
arena has no part in it, whether the scopes that the command opens are closed again or not.
-/

namespace PageOutline

/-- The index of the last command of the page. -/
def Cursor.last (cursor : Cursor) : Int := cursor.position + cursor.rest.length

/-- Pulling a command does not change where the page ends. -/
theorem Cursor.last_next (c : Command) (rest : List Command) (index : Int) :
    Cursor.last ⟨rest, index + 1⟩ = Cursor.last ⟨c :: rest, index⟩ := by
  simp only [last, List.length_cons]
  omega

/-- Pulling a run does not change where the page ends. -/
@[simp] theorem Cursor.last_takeRun (cursor : Cursor) (slot : CodeSlot) :
    (cursor.takeRun slot).2.last = cursor.last := by
  have hlength := congrArg List.length (cursor.takeRun_append_rest slot)
  rw [List.length_append] at hlength
  simp only [last, takeRun] at hlength ⊢
  omega

/-- What the parser makes of a piece of a page: the forest for the node that receives commands, the
arms for the node of the scope, the issues, the place where it stops and what it gives there. -/
structure Yield where
  body : Forest .body
  arms : Forest .arms
  issues : List Diagnostic
  after : Cursor
  result : Except PageError Unit

namespace Yield

/-- A parse that began in a state, when what it makes of the page is put into the arena. -/
def onto (y : Yield) (s : ParseState) (node arm : Nat) : Except PageError Unit × ParseState :=
  let journal := s.journal.addAll y.issues
  (y.result, ⟨(s.arena.graft arm y.body).graft node y.arms, y.after, journal.diagnostics,
    journal.log⟩)

/-- How a piece of a page ends: whole, or with the page, or where scopes nest too deep. -/
inductive Ends (y : Yield) (whole deep : Prop) : Prop
  | closed (hresult : y.result = .ok ()) (hwhole : whole)
  | unterminated {opener : Code} {position : Int} {terminator : CodeSlot}
    (hresult : y.result = .error (.unterminated opener position terminator))
    (hrest : y.after.rest = [])
  | tooDeep {position : Int} (hresult : y.result = .error (.nestingTooDeep position))
    (hdeep : deep)

/-- What a yield is then that is followed by another one. -/
def andThen (y z : Yield) : Yield :=
  ⟨y.body.append z.body, z.arms, y.issues ++ z.issues, z.after, z.result⟩

end Yield

namespace ParseState

variable {db : Database} {matching : Matching} {length room : Nat} {s s₁ : ParseState} {c : Command}
  {parent : Nat} {continuation : CodeSlot}

/-- Padding is skipped. -/
theorem place_padding (hpad : c.isSentinel = true) (s : ParseState) (parent : Int) :
    s.place db parent c = (.ok .skipped, s) := by
  rw [place, if_pos hpad]

/-- No node is made at an id that leads to none. -/
theorem place_of_not_contains (db : Database) (hpad : c.isSentinel = false) {parent : Int}
    (hmissing : s.arena.contains parent = false) :
    s.place db parent c = (.error (.nodeNotFound (.int parent)), s) := by
  simp [place, hpad, append, Arena.append, Arena.update, hmissing]

/-- A command that stands alone is placed as a leaf, with the issue if its code is unknown. -/
theorem place_leaf (hpad : c.isSentinel = false)
    (hkind : ∀ kind ∈ db.kind? c.code, kind.StandsAlone) (hparent : parent < s.arena.size) :
    let journal := s.journal.addAll ((Forest.leaf c .nil).issues db s.cursor.position)
    s.place db parent c =
      (.ok (.leaf s.arena.size),
        ⟨s.arena.graft parent (.leaf c .nil), s.cursor, journal.diagnostics, journal.log⟩) := by
  simp only [place, hpad, Bool.false_eq_true, if_false, append_eq hparent,
    ← Arena.graft_leaf hparent, Arena.graft_nil, Forest.issues]
  cases hd : db.get? c.code with
  | none => rfl
  | some d =>
    have hplain := hkind d.kind (by simp [Database.kind?, hd])
    cases hk : d.kind with
    | plain parameters => simp [hk, journal]
    | mark => simp [hk, journal]
    | _ => simp [hk, CommandKind.StandsAlone] at hplain

/-- A text command is placed as a leaf with the run of its lines. -/
theorem place_text (hpad : c.isSentinel = false)
    (hkind : db.kind? c.code = some (.text continuation)) (hparent : parent < s.arena.size) :
    let (lines, after) := s.cursor.takeRun continuation
    let journal := s.journal.addAll (malformedLines c (s.cursor.position + 1) lines)
    s.place db parent c =
      (.ok (.leaf s.arena.size), ⟨s.arena.graft parent (.text c lines .nil), after,
        journal.diagnostics, journal.log⟩) := by
  obtain ⟨d, hd, hdkind⟩ := Option.map_eq_some_iff.1 hkind
  have hid : s.arena.size < (s.arena.extend parent c).size := by simp
  have hjoin := joinText_eq (s := { s with arena := s.arena.extend parent c }) (c := c) hid
    continuation
  simp only [place, hpad, Bool.false_eq_true, if_false, append_eq hparent, hd, hdkind,
    ← Arena.graft_text hparent, Arena.graft_nil]
  exact hjoin

/-- A route is placed as a leaf with the run of its entries. -/
theorem place_route (hpad : c.isSentinel = false)
    (hkind : db.kind? c.code = some (.route continuation)) (hparent : parent < s.arena.size) :
    let (entries, after) := s.cursor.takeRun continuation
    s.place db parent c =
      (.ok (.leaf s.arena.size), ⟨s.arena.graft parent (.route c entries .nil), after,
        s.diagnostics, s.log⟩) := by
  obtain ⟨d, hd, hdkind⟩ := Option.map_eq_some_iff.1 hkind
  have hid : s.arena.size < (s.arena.extend parent c).size := by simp
  have hkeep := keepEntries_eq (s := { s with arena := s.arena.extend parent c }) hid continuation
  simp only [place, hpad, Bool.false_eq_true, if_false, append_eq hparent, hd, hdkind,
    ← Arena.graft_route hparent, Arena.graft_nil]
  exact hkeep

/-- An opening command is placed as a child and opens its scope there. -/
theorem place_scope {kind : ScopeKind} (hpad : c.isSentinel = false)
    (hkind : db.kind? c.code = some (.scope kind)) (hparent : parent < s.arena.size) :
    s.place db parent c =
      (.ok (.opened ⟨s.arena.size, s.arena.size, kind, c.code, s.cursor.position⟩),
        { s with arena := s.arena.extend parent c }) := by
  obtain ⟨d, hd, hdkind⟩ := Option.map_eq_some_iff.1 hkind
  simp only [place, hpad, Bool.false_eq_true, if_false, append_eq hparent, hd, hdkind]

/-- Wherever a command is placed that is not padding, it gets the next node. -/
theorem place_cases_of_lt (db : Database) (hpad : c.isSentinel = false)
    (hparent : parent < s.arena.size) :
    (∃ t, s.place db parent c = (.ok (.leaf s.arena.size), t)) ∨
      ∃ kind position, s.place db parent c =
        (.ok (.opened ⟨s.arena.size, s.arena.size, kind, c.code, position⟩),
          { s with arena := s.arena.extend parent c }) := by
  cases hkind : db.kind? c.code with
  | none => exact .inl ⟨_, place_leaf hpad (by simp [hkind]) hparent⟩
  | some kind =>
    cases kind with
    | scope kind => exact .inr ⟨_, _, place_scope hpad hkind hparent⟩
    | text continuation => exact .inl ⟨_, place_text hpad hkind hparent⟩
    | route continuation => exact .inl ⟨_, place_route hpad hkind hparent⟩
    | plain parameters =>
      exact .inl ⟨_, place_leaf hpad (by simp [hkind, CommandKind.StandsAlone]) hparent⟩
    | mark => exact .inl ⟨_, place_leaf hpad (by simp [hkind, CommandKind.StandsAlone]) hparent⟩

/-- Places a command with all that it owns, where at most `length` commands are still to come. -/
def settle (db : Database) (matching : Matching) (length room : Nat) (s : ParseState)
    (parent : Int) (c : Command) : Except PageError Unit × ParseState :=
  match s.place db parent c with
  | (.error e, s) => (.error e, s)
  | (.ok (.opened scope), s) =>
    match room with
    | 0 => (.error (.nestingTooDeep s.cursor.position), s)
    | room + 1 => fillScope db matching length room scope s
  | (.ok _, s) => (.ok (), s)

/-- A command in a body is placed with all that it owns before the scope is read on. -/
theorem fillScope_of_passes {scope : Scope} (hpull : s.pull? = some (c, s₁))
    (hpasses : scope.kind.Passes matching c) :
    fillScope db matching (length + 1) room scope s =
      match settle db matching length room s₁ scope.arm c with
      | (.error e, s) => (.error e, s)
      | (.ok (), s) => fillScope db matching length room scope s := by
  simp only [fillScope, hpull, if_neg hpasses.1, if_neg hpasses.2, settle]
  obtain ⟨e | placement, s₂⟩ := s₁.place db scope.arm c
  · rfl
  · cases placement with
    | skipped => rfl
    | leaf id => rfl
    | opened inner => cases room <;> rfl

/-- The call for a command that is not padding gives the id of its node, unless it fails. -/
theorem parseCommand_eq_settle (hpad : c.isSentinel = false) (hparent : parent < s.arena.size) :
    s.parseCommand db matching room parent c =
      let r := s.settle db matching s.cursor.rest.length room parent c
      (r.1.map fun _ => some s.arena.size, r.2) := by
  rcases place_cases_of_lt db hpad hparent with ⟨t, hplace⟩ | ⟨kind, position, hplace⟩
  · simp only [parseCommand, settle, hplace]
    rfl
  · cases room with
    | zero =>
      simp only [parseCommand, settle, hplace]
      rfl
    | succ room =>
      simp only [parseCommand, settle, hplace]
      generalize fillScope db matching _ room _ _ = r
      obtain ⟨e | _, s'⟩ := r <;> rfl

end ParseState

/-- Whether a forest is what a command stands for with all that it owns of what is `ahead` of it,
whatever scope is around it. `rest` is what is left then. -/
structure Forest.Owned (db : Database) (matching : Matching) (room : Nat) (c : Command)
    (ahead rest : List Command) (f : Forest .body) : Prop where
  flatten : ∃ taken, f.flatten = c :: taken ∧ taken ++ rest = ahead
  fits : ∀ around? : Option ScopeKind, (∀ kind ∈ around?, kind.Passes matching c) →
    f.Fits db matching around? rest.head?
  depth : f.depth ≤ room

/-- Whether what is `ahead` within a scope is a body, arms and the terminator of the scope, and then
`rest`. -/
structure ScopeKind.Closes (db : Database) (matching : Matching) (room : Nat) (kind : ScopeKind)
    (ahead rest : List Command) (body : Forest .body) (arms : Forest .arms) (terminator : Command) :
    Prop where
  flatten : body.flatten ++ (arms.flatten ++ terminator :: rest) = ahead
  bodyFits : body.Fits db matching (some kind) (arms.first (some terminator))
  armsFits : arms.Fits db matching (some kind) (some terminator)
  holds : kind.terminator.code.holds terminator.code = true
  depth : max body.depth arms.depth ≤ room

/-- What a command comes to with all that it owns, wherever it is placed. The cursor stands behind
the command. -/
structure ComesTo (db : Database) (matching : Matching) (length room : Nat) (cursor : Cursor)
    (c : Command) (y : Yield) : Prop where
  run : ∀ (s : ParseState) (parent : Nat), s.cursor = cursor → parent < s.arena.size →
    s.settle db matching length room parent c = y.onto s parent parent
  arms : y.arms = .nil
  item : c.isSentinel = false → y.body.IsItem
  last : y.after.last = cursor.last
  ends : y.Ends (y.body.Owned db matching room c cursor.rest y.after.rest)
    (room ≤ cursor.rest.length)

/-- What reading an open scope on comes to, whichever its nodes are. -/
structure Fills (db : Database) (matching : Matching) (length room : Nat) (kind : ScopeKind)
    (opener : Code) (position : Int) (cursor : Cursor) (y : Yield) : Prop where
  run : ∀ (s : ParseState) (node arm : Nat), s.cursor = cursor → node < s.arena.size →
    arm < s.arena.size →
      s.fillScope db matching length room ⟨node, arm, kind, opener, position⟩ = y.onto s node arm
  last : y.after.last = cursor.last
  ends : y.Ends
    (∃ terminator, kind.Closes db matching room cursor.rest y.after.rest y.body y.arms terminator)
    (room < cursor.rest.length)

section ComesTo

variable {db : Database} {matching : Matching} {length room : Nat} {cursor : Cursor} {c : Command}

/-- Padding comes to nothing. -/
theorem comesTo_padding (hpad : c.isSentinel = true) :
    ComesTo db matching length room cursor c ⟨.padding c .nil, .nil, [], cursor, .ok ()⟩ where
  run := by
    rintro s parent rfl hparent
    have harena : s.arena.graft parent (.padding c .nil) = s.arena := Arena.graft_nil ..
    simp only [ParseState.settle, ParseState.place_padding hpad, Yield.onto, harena,
      Arena.graft_nil]
    rfl
  arms := rfl
  item := by simp [hpad]
  last := rfl
  ends := .closed rfl
    ⟨⟨[], rfl, rfl⟩, fun _ hpasses => ⟨hpad, hpasses, trivial⟩, Nat.zero_le _⟩

/-- A command that stands alone comes to a leaf. -/
theorem comesTo_leaf (hpad : c.isSentinel = false)
    (hkind : ∀ kind ∈ db.kind? c.code, kind.StandsAlone) :
    ComesTo db matching length room cursor c
      ⟨.leaf c .nil, .nil, (Forest.leaf c .nil).issues db cursor.position, cursor, .ok ()⟩ where
  run := by
    rintro s parent rfl hparent
    simp only [ParseState.settle, ParseState.place_leaf hpad hkind hparent, Yield.onto,
      Arena.graft_nil]
  arms := rfl
  item := fun _ => .leaf c
  last := rfl
  ends := .closed rfl
    ⟨⟨[], rfl, rfl⟩, fun _ hpasses => ⟨hpad, hpasses, hkind, trivial⟩, Nat.zero_le _⟩

/-- A text command comes to a leaf with the run of its lines. -/
theorem comesTo_text {continuation : CodeSlot} (hpad : c.isSentinel = false)
    (hkind : db.kind? c.code = some (.text continuation)) :
    let (lines, after) := cursor.takeRun continuation
    ComesTo db matching length room cursor c
      ⟨.text c lines .nil, .nil, malformedLines c (cursor.position + 1) lines, after, .ok ()⟩ where
  run := by
    rintro s parent rfl hparent
    simp only [ParseState.settle, ParseState.place_text hpad hkind hparent, Yield.onto,
      Arena.graft_nil]
    rfl
  arms := rfl
  item := fun _ => .text c _
  last := cursor.last_takeRun continuation
  ends := by
    refine .closed rfl ⟨⟨_, ?_, cursor.takeRun_append_rest continuation⟩,
      fun _ hpasses => ⟨hpad, hpasses, ⟨continuation, hkind, ?_, ?_⟩, trivial⟩, Nat.zero_le _⟩
    · rw [Forest.flatten, Forest.flatten, List.append_nil]
      rfl
    · exact fun _ => Cursor.holds_of_mem_takeRun
    · exact cursor.not_holds_head_takeRun continuation

/-- A route comes to a leaf with the run of its entries. -/
theorem comesTo_route {continuation : CodeSlot} (hpad : c.isSentinel = false)
    (hkind : db.kind? c.code = some (.route continuation)) :
    let (entries, after) := cursor.takeRun continuation
    ComesTo db matching length room cursor c ⟨.route c entries .nil, .nil, [], after, .ok ()⟩ where
  run := by
    rintro s parent rfl hparent
    simp only [ParseState.settle, ParseState.place_route hpad hkind hparent, Yield.onto,
      Arena.graft_nil]
    rfl
  arms := rfl
  item := fun _ => .route c _
  last := cursor.last_takeRun continuation
  ends := by
    refine .closed rfl ⟨⟨_, ?_, cursor.takeRun_append_rest continuation⟩,
      fun _ hpasses => ⟨hpad, hpasses, ⟨continuation, hkind, ?_, ?_⟩, trivial⟩, Nat.zero_le _⟩
    · rw [Forest.flatten, Forest.flatten, List.append_nil]
      rfl
    · exact fun _ => Cursor.holds_of_mem_takeRun
    · exact cursor.not_holds_head_takeRun continuation

/-- Where no more scope may be opened, an opening command gets a node and nothing more. -/
theorem comesTo_deep {kind : ScopeKind} (hpad : c.isSentinel = false)
    (hkind : db.kind? c.code = some (.scope kind)) :
    ComesTo db matching length 0 cursor c
      ⟨.leaf c .nil, .nil, [], cursor, .error (.nestingTooDeep cursor.position)⟩ where
  run := by
    rintro s parent rfl hparent
    simp only [ParseState.settle, ParseState.place_scope hpad hkind hparent, Yield.onto,
      Arena.graft_nil, ← Arena.graft_leaf hparent]
    rfl
  arms := rfl
  item := fun _ => .leaf c
  last := rfl
  ends := .tooDeep rfl (Nat.zero_le _)

/-- An opening command has what its scope comes to below its node. -/
theorem comesTo_scope {kind : ScopeKind} {z : Yield} (terminator : Command)
    (hpad : c.isSentinel = false) (hkind : db.kind? c.code = some (.scope kind))
    (hz : Fills db matching length room kind c.code cursor.position cursor z)
    (hends : z.Ends
      (kind.Closes db matching room cursor.rest z.after.rest z.body z.arms terminator)
      (room < cursor.rest.length)) :
    ComesTo db matching length (room + 1) cursor c
      ⟨.scope c z.body z.arms terminator .nil, .nil, z.issues, z.after, z.result⟩ where
  run := by
    rintro s parent rfl hparent
    have hid : s.arena.size < (s.arena.extend parent c).size := by simp
    simp only [ParseState.settle, ParseState.place_scope hpad hkind hparent]
    rw [hz.run { s with arena := s.arena.extend parent c } _ _ rfl hid hid]
    simp only [Yield.onto, Arena.graft_nil, ← Arena.graft_scope hparent]
    rfl
  arms := rfl
  item := fun _ => .scope ..
  last := hz.last
  ends := by
    rcases hends with ⟨hresult, hclosed⟩ | ⟨hresult, hrest⟩ | ⟨hresult, hdeep⟩
    · refine .closed hresult ⟨?_, fun _ hpasses => ?_, ?_⟩
      · have hflat := hclosed.flatten
        exact ⟨z.body.flatten ++ (z.arms.flatten ++ [terminator]), rfl, by simpa using hflat⟩
      · exact ⟨hpad, hpasses,
          ⟨kind, hkind, hclosed.bodyFits, hclosed.armsFits, hclosed.holds⟩, trivial⟩
      · have hdepth := hclosed.depth
        simp only [Forest.depth]
        omega
    · exact .unterminated hresult hrest
    · exact .tooDeep hresult hdeep

/-- Every command comes to something when it is placed, if scopes do that are read from there on. -/
theorem exists_comesTo (hlength : cursor.rest.length ≤ length)
    (hfills : ∀ room kind opener position cursor, cursor.rest.length ≤ length →
      ∃ z, Fills db matching length room kind opener position cursor z) :
    ∃ y, ComesTo db matching length room cursor c y := by
  cases hpad : c.isSentinel with
  | true => exact ⟨_, comesTo_padding hpad⟩
  | false =>
    cases hkind : db.kind? c.code with
    | none => exact ⟨_, comesTo_leaf hpad (by simp [hkind])⟩
    | some kind =>
      cases kind with
      | scope kind =>
        cases room with
        | zero => exact ⟨_, comesTo_deep hpad hkind⟩
        | succ room =>
          obtain ⟨z, hz⟩ := hfills room kind c.code cursor.position cursor hlength
          rcases hz.ends with ⟨hresult, terminator, hclosed⟩ | ⟨hresult, hrest⟩ | ⟨hresult, hdeep⟩
          · exact ⟨_, comesTo_scope terminator hpad hkind hz (.closed hresult hclosed)⟩
          -- without a terminator any command may stand for it
          · exact ⟨_, comesTo_scope c hpad hkind hz (.unterminated hresult hrest)⟩
          · exact ⟨_, comesTo_scope c hpad hkind hz (.tooDeep hresult hdeep)⟩
      | text continuation => exact ⟨_, comesTo_text hpad hkind⟩
      | route continuation => exact ⟨_, comesTo_route hpad hkind⟩
      | plain parameters => exact ⟨_, comesTo_leaf hpad (by simp [hkind, CommandKind.StandsAlone])⟩
      | mark => exact ⟨_, comesTo_leaf hpad (by simp [hkind, CommandKind.StandsAlone])⟩

end ComesTo

section Fills

variable {db : Database} {matching : Matching} {length room : Nat} {kind : ScopeKind}
  {opener : Code} {position index : Int} {c : Command} {rest : List Command} {y z : Yield}

/-- Pulling takes the first command that is left. -/
theorem ParseState.pull?_of_cursor {s : ParseState} (h : s.cursor = ⟨c :: rest, index⟩) :
    s.pull? = some (c, { s with cursor := ⟨rest, index + 1⟩ }) := by
  simp [pull?, h, Cursor.next?]

/-- A scope at whose end the page ends is unterminated. -/
theorem fills_nil :
    Fills db matching length room kind opener position ⟨[], index⟩
      ⟨.nil, .nil, [], ⟨[], index⟩,
        .error (.unterminated opener position kind.terminator.code)⟩ where
  run := by
    intro s node arm hcursor hnode harm
    have hpull : s.pull? = none := by simp [ParseState.pull?, hcursor, Cursor.next?]
    cases length with
    | zero => simp [ParseState.fillScope, Yield.onto, ParseState.journal, ← hcursor]
    | succ length => simp [ParseState.fillScope, hpull, Yield.onto, ParseState.journal, ← hcursor]
  last := rfl
  ends := .unterminated rfl rfl

/-- A terminator ends the scope and is taken. -/
theorem fills_terminator (hterm : kind.terminator.code.holds c.code = true) :
    Fills db matching (length + 1) room kind opener position ⟨c :: rest, index⟩
      ⟨.nil, .nil, [], ⟨rest, index + 1⟩, .ok ()⟩ where
  run := by
    intro s node arm hcursor hnode harm
    simp [ParseState.fillScope, ParseState.pull?_of_cursor hcursor, hterm, Yield.onto,
      ParseState.journal]
  last := Cursor.last_next ..
  ends := .closed rfl ⟨c, rfl, trivial, trivial, hterm, Nat.zero_le _⟩

/-- A delimiter becomes an arm that has the body read next. -/
theorem Fills.delimiter (hterm : ¬kind.terminator.code.holds c.code = true)
    (hbranch : (kind.findBranch? matching c).isSome = true)
    (hz : Fills db matching length room kind opener position ⟨rest, index + 1⟩ z) :
    Fills db matching (length + 1) room kind opener position ⟨c :: rest, index⟩
      ⟨.nil, .arm c z.body z.arms, z.issues, z.after, z.result⟩ where
  run := by
    intro s node arm hcursor hnode harm
    simp only [ParseState.fillScope, ParseState.pull?_of_cursor hcursor, if_neg hterm,
      if_pos hbranch]
    rw [ParseState.append_eq (by exact hnode)]
    have hsize : (s.arena.extend node c).size = s.arena.size + 1 := Arena.size_extend ..
    simp only [hz.run ⟨s.arena.extend node c, ⟨rest, index + 1⟩, s.diagnostics, s.log⟩ node
      s.arena.size rfl (by rw [hsize]; omega) (by rw [hsize]; omega)]
    simp only [Yield.onto, Arena.graft_nil, ← Arena.graft_arm hnode]
    rfl
  last := hz.last.trans (Cursor.last_next ..)
  ends := by
    rcases hz.ends with ⟨hresult, terminator, hclosed⟩ | ⟨hresult, hrest⟩ | ⟨hresult, hdeep⟩
    · refine .closed hresult ⟨terminator, ?_, trivial, ?_, hclosed.holds, ?_⟩
      · have hflat := hclosed.flatten
        simpa [Forest.flatten] using hflat
      · exact ⟨⟨kind, rfl, hterm, hbranch⟩, hclosed.bodyFits, hclosed.armsFits⟩
      · have hdepth := hclosed.depth
        simp only [Forest.depth]
        omega
    · exact .unterminated hresult hrest
    · exact .tooDeep hresult (Nat.lt_succ_of_lt hdeep)

/-- A command in a body comes before what the scope comes to after it. -/
theorem Fills.item (hpasses : kind.Passes matching c)
    (hy : ComesTo db matching length room ⟨rest, index + 1⟩ c y) (hresult : y.result = .ok ())
    (hz : Fills db matching length room kind opener position y.after z) :
    Fills db matching (length + 1) room kind opener position ⟨c :: rest, index⟩ (y.andThen z) where
  run := by
    intro s node arm hcursor hnode harm
    rw [ParseState.fillScope_of_passes (ParseState.pull?_of_cursor hcursor) hpasses,
      hy.run ⟨s.arena, ⟨rest, index + 1⟩, s.diagnostics, s.log⟩ arm rfl harm]
    simp only [Yield.onto, hresult, hy.arms, Arena.graft_nil]
    rw [hz.run _ node arm rfl (by simp only [Arena.size_graft]; omega)
      (by simp only [Arena.size_graft]; omega)]
    simp only [Yield.onto, Yield.andThen, ParseState.journal, Arena.graft_append harm,
      Journal.addAll_append]
  last := (hz.last.trans hy.last).trans (Cursor.last_next ..)
  ends := by
    rcases hy.ends with ⟨-, ⟨taken, htaken, hrest⟩, hfits, hdepth⟩ | ⟨hfails, -⟩ | ⟨hfails, -⟩
    · rcases hz.ends with ⟨hcloses, terminator, hclosed⟩ | ⟨hfails, hend⟩ | ⟨hfails, hdeep⟩
      · have hitem := hfits (some kind) fun _ hkind => by cases hkind; exact hpasses
        have hflat := hclosed.flatten
        have hlater := hclosed.depth
        rw [← hflat, Forest.head?_flatten_append, Forest.head?_flatten_append] at hitem
        refine .closed hcloses ⟨terminator, ?_, Forest.fits_append.2 ⟨hitem, hclosed.bodyFits⟩,
          hclosed.armsFits, hclosed.holds, ?_⟩
        · simp only [Yield.andThen, Forest.flatten_append, htaken, List.append_assoc, hflat,
            List.cons_append, hrest]
        · simp only [Yield.andThen, Forest.depth_append]
          omega
      · exact .unterminated hfails hend
      · refine .tooDeep hfails ?_
        have hparts := congrArg List.length hrest
        rw [List.length_append] at hparts
        simp only [List.length_cons] at hparts ⊢
        omega
    · simp [hresult] at hfails
    · simp [hresult] at hfails

/-- A command in a body that fails ends the reading of the scope. -/
theorem Fills.failure {e : PageError} (hpasses : kind.Passes matching c)
    (hy : ComesTo db matching length room ⟨rest, index + 1⟩ c y) (hresult : y.result = .error e) :
    Fills db matching (length + 1) room kind opener position ⟨c :: rest, index⟩ y where
  run := by
    intro s node arm hcursor hnode harm
    rw [ParseState.fillScope_of_passes (ParseState.pull?_of_cursor hcursor) hpasses,
      hy.run ⟨s.arena, ⟨rest, index + 1⟩, s.diagnostics, s.log⟩ arm rfl harm]
    simp only [Yield.onto, hresult, hy.arms, Arena.graft_nil]
    rfl
  last := hy.last.trans (Cursor.last_next ..)
  ends := by
    rcases hy.ends with ⟨hcloses, -⟩ | ⟨hfails, hend⟩ | ⟨hfails, hdeep⟩
    · simp [hresult] at hcloses
    · exact .unterminated hfails hend
    · exact .tooDeep hfails (Nat.lt_succ_of_le hdeep)

end Fills

/-- Reading an open scope on comes to the same whichever its nodes are. The induction is on the
number of commands still to come; what a scope within comes to is known from it as well. -/
theorem exists_fills (db : Database) (matching : Matching) (length room : Nat) (kind : ScopeKind)
    (opener : Code) (position : Int) (cursor : Cursor) (hlength : cursor.rest.length ≤ length) :
    ∃ z, Fills db matching length room kind opener position cursor z := by
  induction length generalizing room kind opener position cursor with
  | zero =>
    obtain ⟨rest, index⟩ := cursor
    cases List.length_eq_zero_iff.1 (Nat.le_zero.1 hlength)
    exact ⟨_, fills_nil⟩
  | succ length ih =>
    obtain ⟨rest, index⟩ := cursor
    cases rest with
    | nil => exact ⟨_, fills_nil⟩
    | cons c rest =>
      have hshorter : rest.length ≤ length := Nat.le_of_succ_le_succ hlength
      by_cases hterm : kind.terminator.code.holds c.code = true
      · exact ⟨_, fills_terminator hterm⟩
      by_cases hbranch : (kind.findBranch? matching c).isSome = true
      · obtain ⟨z, hz⟩ := ih room kind opener position ⟨rest, index + 1⟩ hshorter
        exact ⟨_, hz.delimiter hterm hbranch⟩
      have hpasses : kind.Passes matching c := ⟨hterm, hbranch⟩
      obtain ⟨y, hy⟩ : ∃ y, ComesTo db matching length room ⟨rest, index + 1⟩ c y :=
        exists_comesTo hshorter ih
      rcases hy.ends with ⟨hcloses, ⟨taken, -, hrest⟩, -⟩ | ⟨hfails, -⟩ | ⟨hfails, -⟩
      · have hlater : y.after.rest.length ≤ length := by
          have hparts : taken.length + y.after.rest.length = rest.length := by
            simpa using congrArg List.length hrest
          omega
        obtain ⟨z, hz⟩ := ih room kind opener position y.after hlater
        exact ⟨_, hz.item hpasses hy hcloses⟩
      · exact ⟨_, .failure hpasses hy hfails⟩
      · exact ⟨_, .failure hpasses hy hfails⟩

/-- A command that is not padding comes to the same wherever it is placed. -/
theorem exists_yield (db : Database) (matching : Matching) (room : Nat) (cursor : Cursor)
    {c : Command} (hpad : c.isSentinel = false) :
    ∃ y : Yield, y.body.IsItem ∧
      (∀ (s : ParseState) (parent : Nat), s.cursor = cursor → parent < s.arena.size →
        let journal := s.journal.addAll y.issues
        s.parseCommand db matching room parent c =
          (y.result.map fun _ => some s.arena.size,
            ⟨s.arena.graft parent y.body, y.after, journal.diagnostics, journal.log⟩)) ∧
      y.after.last = cursor.last ∧
      y.Ends (y.body.Owned db matching room c cursor.rest y.after.rest)
        (room ≤ cursor.rest.length) := by
  obtain ⟨y, hy⟩ : ∃ y, ComesTo db matching cursor.rest.length room cursor c y :=
    exists_comesTo (Nat.le_refl _) (exists_fills db matching cursor.rest.length)
  refine ⟨y, hy.item hpad, ?_, hy.last, hy.ends⟩
  rintro s parent rfl hparent
  rw [ParseState.parseCommand_eq_settle hpad hparent, hy.run s parent rfl hparent]
  simp only [Yield.onto, hy.arms, Arena.graft_nil]

end PageOutline
