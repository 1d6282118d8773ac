import PageOutline.Proofs.Forest.Replay
import PageOutline.Proofs.Sweep.Refinement

/-!
# Pages that stand for a forest

A page parses exactly if it stands for a forest that fits, and its tree is that of the forest. To
find the forest, the page is cut up from left to right; where that stops short, the rest of the page
leaves a scope open.
-/

namespace PageOutline

namespace Sweep

variable {db : Database} {matching : Matching} {s : Sweep}

/-- With nothing pending any more the open scopes are the same. -/
@[simp] theorem scopes_release (s : Sweep) : s.release.scopes = s.scopes := rfl

/-- After a body the arena has the nodes of the body more. -/
@[simp] theorem size_afterBody (s : Sweep) (f : Forest .body) :
    (s.afterBody db f).arena.size = s.arena.size + f.count :=
  Arena.size_graft ..

/-- The scopes that are open in the end are those after the body and what follows it. -/
theorem scopes_run_body {f : Forest .body} {ds : List Command} (hpending : s.absorber? = none)
    (hparent : s.parent < s.arena.size)
    (hfits : f.Fits db matching (s.scopes.head?.map (·.kind)) ds.head?) :
    (s.run db matching (f.flatten ++ ds)).scopes =
      ((s.afterBody db f).run db matching ds).scopes := by
  have hleads := f.replays _ s ds hpending hparent (Nat.le_refl _) hfits
  rw [← scopes_release, hleads.1, scopes_release]

/-- A body can be cut off the front of what is left of the page, up to a command that does not
belong to it, or else a scope that is opened there stays open. -/
def FindsBody (db : Database) (matching : Matching) (s : Sweep) (cs : List Command) : Prop :=
  (∃ (f : Forest .body) (ds : List Command), f.flatten ++ ds = cs ∧
    f.Fits db matching (s.scopes.head?.map (·.kind)) ds.head? ∧
    ∀ d ∈ ds.head?, ¬∀ kind ∈ s.scopes.head?.map (·.kind), kind.Passes matching d) ∨
  s.scopes.length < (s.run db matching cs).scopes.length

/-- The arms of the innermost scope and its terminator can be cut off the front of what is left of
the page, or else that scope or one within it stays open. -/
def FindsArms (db : Database) (matching : Matching) (s : Sweep) (scope : Scope)
    (outer : List Scope) (cs : List Command) : Prop :=
  (∃ (f : Forest .arms) (terminator : Command) (ds : List Command),
    f.flatten ++ terminator :: ds = cs ∧ f.Fits db matching (some scope.kind) (some terminator) ∧
    scope.kind.terminator.code.holds terminator.code = true) ∨
  outer.length < (s.run db matching cs).scopes.length

/-- Bodies and arms are found in what is left of a page, as long as that is no longer than
`length`. -/
structure Finds (db : Database) (matching : Matching) (length : Nat) : Prop where
  body : ∀ s : Sweep, s.absorber? = none → s.parent < s.arena.size →
    ∀ cs, cs.length ≤ length → FindsBody db matching s cs
  arms : ∀ (s : Sweep) (scope : Scope) (outer : List Scope), s.absorber? = none →
    s.scopes = scope :: outer → s.parent < s.arena.size → scope.node < s.arena.size →
    ∀ cs, cs.length ≤ length → (∀ d ∈ cs.head?, ¬scope.kind.Passes matching d) →
      FindsArms db matching s scope outer cs

/-- An item goes before the body that is found after it. -/
theorem FindsBody.of_item (taken : List Command) {rest : List Command}
    (item : Forest .body → Forest .body)
    (hpending : s.absorber? = none) (hparent : s.parent < s.arena.size)
    (hflat : ∀ f, (item f).flatten = taken ++ f.flatten)
    (hfits : ∀ f after, f.first after = rest.head? →
      f.Fits db matching (s.scopes.head?.map (·.kind)) after →
      (item f).Fits db matching (s.scopes.head?.map (·.kind)) after)
    (h : FindsBody db matching (s.afterBody db (item .nil)) rest) :
    FindsBody db matching s (taken ++ rest) := by
  rcases h with ⟨f, ds, hf, hfit, hend⟩ | hdeep
  · refine Or.inl ⟨item f, ds, ?_, ?_, hend⟩
    · rw [hflat, List.append_assoc, hf]
    · refine hfits f _ ?_ hfit
      rw [← Forest.head?_flatten_append, hf]
  · right
    have hnil : (item .nil).flatten ++ rest = taken ++ rest := by simp [hflat, Forest.flatten]
    rw [← hnil, scopes_run_body hpending hparent (hfits .nil _ rfl trivial)]
    exact hdeep

/-- Before a command that closes or divides the innermost scope the empty body is found. -/
theorem FindsBody.of_not_passes {cs : List Command}
    (h : ∀ d ∈ cs.head?, ¬∀ kind ∈ s.scopes.head?.map (·.kind), kind.Passes matching d) :
    FindsBody db matching s cs :=
  Or.inl ⟨.nil, cs, rfl, trivial, h⟩

/-- A body is found within the innermost scope, then its arms and its terminator, or else that scope
or one within it stays open. -/
theorem Finds.body_arms {scope : Scope} {outer : List Scope} {cs : List Command}
    (hfinds : Finds db matching cs.length) (hpending : s.absorber? = none)
    (hscopes : s.scopes = scope :: outer) (hparent : s.parent < s.arena.size)
    (hnode : scope.node < s.arena.size) :
    (∃ (body : Forest .body) (arms : Forest .arms) (terminator : Command) (ds : List Command),
      body.flatten ++ (arms.flatten ++ terminator :: ds) = cs ∧
      body.Fits db matching (some scope.kind) (arms.first (some terminator)) ∧
      arms.Fits db matching (some scope.kind) (some terminator) ∧
      scope.kind.terminator.code.holds terminator.code = true) ∨
    outer.length < (s.run db matching cs).scopes.length := by
  have hhead : s.scopes.head?.map (·.kind) = some scope.kind := by rw [hscopes]; rfl
  have hbodies := hfinds.body s hpending hparent cs (Nat.le_refl _)
  rw [FindsBody, hhead] at hbodies
  rcases hbodies with ⟨body, ds, rfl, hbody, hends⟩ | hdeep
  case inr =>
    rw [hscopes] at hdeep
    exact Or.inr (Nat.lt_of_succ_lt hdeep)
  have hsize : (s.afterBody db body).arena.size = s.arena.size + body.count := size_afterBody ..
  have hends' : ∀ d ∈ ds.head?, ¬scope.kind.Passes matching d := by
    intro d hd hpasses
    refine hends d hd fun kind hkind => ?_
    cases hkind
    exact hpasses
  rcases hfinds.arms (s.afterBody db body) scope outer hpending hscopes
    (by rw [hsize]; exact Nat.lt_add_right _ hparent)
    (by rw [hsize]; exact Nat.lt_add_right _ hnode)
    ds (by simp) hends' with ⟨arms, terminator, es, rfl, harms, hterm⟩ | hdeep
  · rw [Forest.head?_flatten_append] at hbody
    exact Or.inl ⟨body, arms, terminator, es, rfl, hbody, harms, hterm⟩
  · right
    rw [← hhead] at hbody
    rw [scopes_run_body hpending hparent hbody]
    exact hdeep

/-- An opening command goes before the body and the arms of its scope and what is found after
them. -/
theorem FindsBody.of_scope {c : Command} {kind : ScopeKind} {cs : List Command}
    (hpending : s.absorber? = none) (hparent : s.parent < s.arena.size)
    (hpad : c.isSentinel = false)
    (hpasses : ∀ kind ∈ s.scopes.head?.map (·.kind), kind.Passes matching c)
    (hkind : db.kind? c.code = some (.scope kind)) (hfinds : Finds db matching cs.length) :
    FindsBody db matching s (c :: cs) := by
  let t : Sweep := s.advance.enter c kind
  have hsize : s.arena.size < t.arena.size := by
    rw [show t.arena.size = s.arena.size + 1 from size_enter ..]
    exact Nat.lt_succ_self _
  have hstep : s.step db matching c = t := by
    rw [step_of_none hpending, accept_of_passes (s := s.advance) hpasses, place_scope hpad hkind]
  rcases hfinds.body_arms (s := t) hpending rfl hsize hsize with
    ⟨body, arms, terminator, ds, rfl, hbody, harms, hterm⟩ | hdeep
  · have hcs : c :: (body.flatten ++ (arms.flatten ++ terminator :: ds)) =
        (c :: (body.flatten ++ (arms.flatten ++ [terminator]))) ++ ds := by simp
    rw [hcs]
    refine of_item _ (.scope c body arms terminator) hpending hparent ?_ ?_ ?_
    · intro f
      simp [Forest.flatten]
    · intro f after _ hfits
      exact ⟨hpad, hpasses, ⟨kind, hkind, hbody, harms, hterm⟩, hfits⟩
    · refine hfinds.body (s.afterBody db _) hpending ?_ ds ?_
      · rw [size_afterBody]
        exact Nat.lt_add_right _ hparent
      · simp only [List.length_append, List.length_cons]
        omega
  · right
    rw [run_cons, hstep]
    exact hdeep

/-- A page begins with a run of the commands that a continuation code takes. -/
theorem exists_run (continuation : CodeSlot) (cs : List Command) :
    ∃ taken rest, taken ++ rest = cs ∧ (∀ c ∈ taken, continuation.holds c.code = true) ∧
      (∀ c ∈ rest.head?, continuation.holds c.code = false) ∧ rest.length ≤ cs.length :=
  let cursor := Cursor.ofList cs
  ⟨_, _, cursor.takeRun_append_rest continuation, fun _ => Cursor.holds_of_mem_takeRun,
    cursor.not_holds_head_takeRun continuation, cursor.length_takeRun_rest_le continuation⟩

/-- Any command that belongs to the body goes before what is found after it, with all that it
owns. -/
theorem FindsBody.of_cons {c : Command} {cs : List Command} (hpending : s.absorber? = none)
    (hparent : s.parent < s.arena.size) (hfinds : Finds db matching cs.length) :
    FindsBody db matching s (c :: cs) := by
  by_cases hpasses : ∀ kind ∈ s.scopes.head?.map (·.kind), kind.Passes matching c
  case neg => exact of_not_passes (by simpa using hpasses)
  -- What an item leaves of the page is short enough to be cut up in turn.
  have hrest : ∀ (item : Forest .body) (rest : List Command), rest.length ≤ cs.length →
      FindsBody db matching (s.afterBody db item) rest := by
    intro item rest hlength
    refine hfinds.body (s.afterBody db item) hpending ?_ rest hlength
    rw [size_afterBody]
    exact Nat.lt_add_right _ hparent
  have hleaf : c.isSentinel = false → (∀ kind ∈ db.kind? c.code, kind.StandsAlone) →
      FindsBody db matching s (c :: cs) := by
    intro hpad hkind
    refine of_item [c] (.leaf c) hpending hparent (fun _ => rfl) ?_
      (hrest _ cs (Nat.le_refl _))
    exact fun f after _ hfits => ⟨hpad, hpasses, hkind, hfits⟩
  cases hpad : c.isSentinel with
  | true =>
    refine of_item [c] (.padding c) hpending hparent (fun _ => rfl) ?_
      (hrest _ cs (Nat.le_refl _))
    exact fun f after _ hfits => ⟨hpad, hpasses, hfits⟩
  | false =>
    cases hkind : db.kind? c.code with
    | none => exact hleaf hpad (by simp [hkind])
    | some kind =>
      cases kind with
      | scope kind => exact of_scope hpending hparent hpad hpasses hkind hfinds
      | text continuation =>
        obtain ⟨lines, rest, rfl, htakes, hnot, hlength⟩ := exists_run continuation cs
        refine of_item (c :: lines) (.text c lines) hpending hparent
          (by simp [Forest.flatten]) ?_ (hrest _ rest hlength)
        intro f after hfirst hfits
        rw [← hfirst] at hnot
        exact ⟨hpad, hpasses, ⟨continuation, hkind, htakes, hnot⟩, hfits⟩
      | route continuation =>
        obtain ⟨entries, rest, rfl, htakes, hnot, hlength⟩ := exists_run continuation cs
        refine of_item (c :: entries) (.route c entries) hpending hparent
          (by simp [Forest.flatten]) ?_ (hrest _ rest hlength)
        intro f after hfirst hfits
        rw [← hfirst] at hnot
        exact ⟨hpad, hpasses, ⟨continuation, hkind, htakes, hnot⟩, hfits⟩
      | plain parameters => exact hleaf hpad (by simp [hkind, CommandKind.StandsAlone])
      | mark => exact hleaf hpad (by simp [hkind, CommandKind.StandsAlone])

/-- A delimiter goes before its body and the arms that are found after that. -/
theorem FindsArms.of_delimiter {scope : Scope} {outer : List Scope} {d : Command}
    {cs : List Command} (hpending : s.absorber? = none) (hscopes : s.scopes = scope :: outer)
    (hnode : scope.node < s.arena.size) (hnot : ¬scope.kind.terminator.code.holds d.code = true)
    (hbranch : (scope.kind.findBranch? matching d).isSome = true)
    (hfinds : Finds db matching cs.length) : FindsArms db matching s scope outer (d :: cs) := by
  let t : Sweep := s.advance.divide scope outer d
  have hsize : s.arena.size < t.arena.size := by
    rw [show t.arena.size = s.arena.size + 1 from size_divide ..]
    exact Nat.lt_succ_self _
  have hstep : s.step db matching d = t := by
    rw [step_of_none hpending, accept_of_branch (s := s.advance) hscopes hnot hbranch]
  rcases hfinds.body_arms (s := t) hpending rfl hsize (Nat.lt_trans hnode hsize) with
    ⟨body, arms, terminator, ds, rfl, hbody, harms, hterm⟩ | hdeep
  · refine Or.inl ⟨.arm d body arms, terminator, ds, by simp [Forest.flatten], ?_, hterm⟩
    exact ⟨⟨scope.kind, rfl, hnot, hbranch⟩, hbody, harms⟩
  · right
    rw [run_cons, hstep]
    exact hdeep

/-- Every page can be cut up, as far as the scopes that it opens are closed again. The induction is
on the number of commands still to come. -/
theorem finds (length : Nat) : Finds db matching length := by
  induction length with
  | zero =>
    refine ⟨fun s _ _ cs hcs => ?_, fun s scope outer _ hscopes _ _ cs hcs _ => ?_⟩
    · cases List.length_eq_zero_iff.1 (Nat.le_zero.1 hcs)
      exact FindsBody.of_not_passes (by simp)
    · cases List.length_eq_zero_iff.1 (Nat.le_zero.1 hcs)
      exact Or.inr (by simp [hscopes])
  | succ length ih =>
    have hshorter : ∀ cs : List Command, cs.length ≤ length → Finds db matching cs.length :=
      fun cs hcs =>
        ⟨fun s hp hs ds hds => ih.body s hp hs ds (Nat.le_trans hds hcs),
          fun s scope outer hp h hs hn ds hds =>
            ih.arms s scope outer hp h hs hn ds (Nat.le_trans hds hcs)⟩
    refine ⟨fun s hpending hparent cs hcs => ?_,
      fun s scope outer hpending hscopes hparent hnode cs hcs hends => ?_⟩
    · cases cs with
      | nil => exact FindsBody.of_not_passes (by simp)
      | cons c cs => exact .of_cons hpending hparent (hshorter cs (Nat.le_of_succ_le_succ hcs))
    · cases cs with
      | nil => exact Or.inr (by simp [hscopes])
      | cons d cs =>
        by_cases hterm : scope.kind.terminator.code.holds d.code = true
        · exact Or.inl ⟨.nil, d, cs, rfl, trivial, hterm⟩
        · have hbranch : (scope.kind.findBranch? matching d).isSome = true :=
            Decidable.byContradiction fun hbranch => hends d rfl ⟨hterm, hbranch⟩
          exact .of_delimiter hpending hscopes hnode hterm hbranch
            (hshorter cs (Nat.le_of_succ_le_succ hcs))

/-- A page that leaves no scope open stands for a forest. -/
theorem exists_forest_of_scopes_eq_nil {page : List Command} (hpending : s.absorber? = none)
    (hparent : s.parent < s.arena.size) (hscopes : s.scopes = [])
    (hclosed : (s.run db matching page).scopes = []) :
    ∃ f : Forest .body, f.flatten = page ∧ f.Fits db matching none none := by
  rcases (finds page.length).body s hpending hparent page (Nat.le_refl _) with
    ⟨f, ds, hflat, hfits, hends⟩ | hdeep
  · have hds : ds = [] := by
      cases ds with
      | nil => rfl
      | cons d ds => exact absurd (by simp [hscopes]) (hends d rfl)
    rw [hds, List.append_nil] at hflat
    rw [hds, hscopes] at hfits
    exact ⟨f, hflat, hfits⟩
  · rw [hclosed, hscopes] at hdeep
    exact absurd hdeep (Nat.lt_irrefl _)

end Sweep

namespace Forest

variable {db : Database} {matching : Matching} {room : Nat} {diagnostics : Diagnostics}
  {log : Array LogRecord}

/-- The issues of a forest that is a whole page, with those collected and logged before. -/
def journal (db : Database) (diagnostics : Diagnostics) (log : Array LogRecord)
    (f : Forest .body) : Journal :=
  Journal.addAll ⟨diagnostics, log⟩ (f.issues db 0)

/-- What the page of a forest gives. -/
def pageResult (db : Database) (diagnostics : Diagnostics) (log : Array LogRecord)
    (f : Forest .body) : PageResult :=
  let journal := f.journal db diagnostics log
  let summary := .pageParsed f.flatten.length f.tree.size journal.diagnostics.entries.size
  ⟨.ok f.tree, journal.diagnostics, journal.log.push summary⟩

/-- A page that is a body from its first command to its last gives the tree and the issues of the
body. -/
theorem result_afterBody (f : Forest .body) :
    ((Sweep.start diagnostics log).afterBody db f).result = f.pageResult db diagnostics log := by
  let t := (Sweep.start diagnostics log).afterBody db f
  have harena : Tree.empty.arena.graft Tree.empty.root f = f.tree.arena := by
    simp [Arena.graft, Arena.attach, Tree.empty, Tree.plant, Arena.newNode, Arena.empty,
      Arena.size, tree, Node.addChildren, Node.detached, Array.modify, Array.modifyM]
  have htree : t.arena = f.tree.arena := harena
  have hjournal : t.journal = f.journal db diagnostics log := rfl
  have hposition : t.position + 1 = f.flatten.length := by
    show -1 + (f.flatten.length : Int) + 1 = f.flatten.length
    omega
  have hroot : t.root = f.tree.root := rfl
  show t.result = _
  rw [Sweep.result, show t.failure? = none from rfl, htree, hjournal, hposition, hroot]
  rfl

/-- The page of a forest that fits gives the tree and the issues of the forest. -/
theorem parsePageWithin_flatten {f : Forest .body} (hfits : f.Fits db matching none none)
    (hdepth : f.depth ≤ room) :
    parsePageWithin room db matching diagnostics log f.flatten =
      f.pageResult db diagnostics log := by
  have hleads := f.replays room (Sweep.start diagnostics log) [] rfl Nat.zero_lt_one
    (by simpa [Sweep.start] using hdepth) hfits
  rw [List.append_nil] at hleads
  obtain ⟨hrun, hpeak⟩ := hleads
  rcases parsePageWithin_cases db matching room diagnostics log f.flatten with
    ⟨-, hresult⟩ | ⟨hdeep, -⟩
  · rw [hresult, ← Sweep.result_release, hrun]
    exact result_afterBody f
  · exact absurd (hpeak.mpr (Nat.zero_le _)) (Nat.not_le.2 hdeep)

/-- A page that parses stands for a forest that fits. -/
theorem exists_of_parsePageWithin {page : List Command} {tree : Tree}
    (h : (parsePageWithin room db matching diagnostics log page).outcome = .ok tree) :
    ∃ f : Forest .body, f.flatten = page ∧ f.Fits db matching none none ∧
      parsePageWithin room db matching diagnostics log page = f.pageResult db diagnostics log := by
  let s := Sweep.start diagnostics log
  rcases parsePageWithin_cases db matching room diagnostics log page with
    ⟨-, hresult⟩ | ⟨-, position, herror⟩
  case inr => rw [herror] at h; cases h
  have hclosed : (s.run db matching page).scopes = [] := by
    rw [hresult, Sweep.result] at h
    cases hscopes : (s.run db matching page).scopes with
    | nil => rfl
    | cons scope outer => simp [Sweep.failure?, s, hscopes] at h
  obtain ⟨f, rfl, hfits⟩ :=
    Sweep.exists_forest_of_scopes_eq_nil (s := s) rfl Nat.zero_lt_one rfl hclosed
  have hleads := f.replays _ s [] rfl Nat.zero_lt_one (Nat.le_refl _) hfits
  rw [List.append_nil] at hleads
  refine ⟨f, rfl, hfits, ?_⟩
  rw [hresult, ← Sweep.result_release, hleads.1]
  exact result_afterBody f

end Forest

end PageOutline
