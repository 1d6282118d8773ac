import PageOutline.Proofs.Forest.WellFormed
import PageOutline.Proofs.Sweep.Page

/-!
# Codes decide the nesting

How a page nests depends on the codes of its commands, and when delimiters are told apart by a
parameter also on how many parameters each command has. Two pages that agree in these are read side
by side: the sweeps over them keep the same frames of nodes, the same scopes and the same unknown
codes, whatever the parameters hold and whether or not lines can be joined.
-/

namespace PageOutline

/-- What is looked at in a command to find its place. -/
def Matching.view (matching : Matching) (c : Command) : Code × Option Nat :=
  match matching with
  | .code => (c.code, none)
  | .parameter => (c.code, some c.parameters.length)

/-- Commands that look alike have the same code, whichever way delimiters are told apart. -/
theorem Matching.code_eq_of_view {matching : Matching} {c d : Command}
    (h : matching.view c = matching.view d) : c.code = d.code := by
  cases matching with
  | code => exact congrArg Prod.fst h
  | parameter => exact congrArg Prod.fst h

/-- Whether a command starts an arm depends on its view. -/
theorem ScopeKind.findBranch?_of_view {matching : Matching} {c d : Command}
    (h : matching.view c = matching.view d) (kind : ScopeKind) :
    kind.findBranch? matching c = kind.findBranch? matching d := by
  have hcode := Matching.code_eq_of_view h
  cases matching with
  | code =>
    unfold findBranch?
    congr 1
    funext b
    rw [Branch.accepts, Branch.accepts, hcode, BEq.rfl, Bool.true_or, Bool.true_or]
  | parameter =>
    have hlength : c.parameters.length = d.parameters.length :=
      Option.some.inj (congrArg Prod.snd h)
    exact kind.findBranch?_congr hcode hlength .parameter

/-- A node without what its command holds and without what its companions are. -/
structure Frame where
  id : Nat
  code : Code
  parent? : Option Nat
  children : Array Nat
  companions : Nat
deriving DecidableEq

/-- What is left of a node. -/
def Node.frame (n : Node) : Frame :=
  ⟨n.id, n.command.code, n.parent?, n.children, n.companions.size⟩

namespace Arena

/-- The frames of the nodes of an arena. -/
def frames (a : Arena) : Array Frame := a.nodes.map Node.frame

variable {a b : Arena}

/-- The frame at an index is that of the node there. -/
theorem getElem?_frames (a : Arena) (id : Nat) : a.frames[id]? = a.nodes[id]?.map Node.frame :=
  Array.getElem?_map ..

/-- Arenas with the same frames have as many nodes. -/
theorem size_eq_of_frames (h : a.frames = b.frames) : a.size = b.size := by
  have hsize := congrArg Array.size h
  rwa [frames, frames, Array.size_map, Array.size_map] at hsize

/-- Nodes with one frame have one frame after changes that the frame determines. -/
theorem map_frame_congr {x y : Option Node} (h : x.map Node.frame = y.map Node.frame)
    {f g : Node → Node} (hfg : ∀ n m, n.frame = m.frame → (f n).frame = (g m).frame) :
    (x.map f).map Node.frame = (y.map g).map Node.frame := by
  cases x with
  | none => cases y with
    | none => rfl
    | some m => cases h
  | some n => cases y with
    | none => cases h
    | some m => exact congrArg some (hfg n m (Option.some.inj h))

/-- A new child for a command of the same code keeps the frames the same. -/
theorem frames_extend (h : a.frames = b.frames) {c d : Command} (hcode : c.code = d.code)
    (parent : Nat) : (a.extend parent c).frames = (b.extend parent d).frames := by
  have hsize := size_eq_of_frames h
  apply Array.ext_getElem?
  intro i
  have hnode := congrArg (·[i]?) h
  simp only [getElem?_frames, getElem?_extend] at hnode ⊢
  rw [hsize]
  by_cases hi : i = b.size
  · rw [if_pos hi, if_pos hi]
    simp [Node.frame, Node.detached, hcode]
  · rw [if_neg hi, if_neg hi]
    refine map_frame_congr hnode fun n m hnm => ?_
    by_cases hparent : parent = i
    · simp only [Node.frame, Frame.mk.injEq] at hnm
      simp [Node.frame, Node.addChildren, hparent, hnm]
    · rw [if_neg hparent, if_neg hparent, hnm]

/-- One more companion keeps the frames the same, whatever command it is. -/
theorem frames_withCompanions (h : a.frames = b.frames) (id : Nat) (c d : Command) :
    (a.withCompanions id [c]).frames = (b.withCompanions id [d]).frames := by
  apply Array.ext_getElem?
  intro i
  have hnode := congrArg (·[i]?) h
  simp only [getElem?_frames, withCompanions, getElem?_amend] at hnode ⊢
  by_cases hi : id = i
  · rw [if_pos hi, if_pos hi]
    refine map_frame_congr hnode fun n m hnm => ?_
    simp only [Node.frame, Frame.mk.injEq] at hnm
    simp [Node.frame, hnm]
  · rw [if_neg hi, if_neg hi]
    exact hnode

/-- A command with the same code leaves the frame of a node as it is. -/
theorem frames_withCommand {id : Nat} {c : Command} (h : c.code = (a.commandAt id).code) :
    (a.withCommand id c).frames = a.frames := by
  apply Array.ext_getElem?
  intro i
  rw [getElem?_frames, getElem?_frames, withCommand, getElem?_amend]
  split
  next hi =>
    subst hi
    cases hn : a.nodes[id]? with
    | none => rfl
    | some n =>
      rw [commandAt_of_some hn] at h
      simp [Node.frame, h]
  next => rfl

/-- Nodes of arenas with the same frames have the same children. -/
theorem childrenOf_congr (h : a.frames = b.frames) (id : Nat) :
    a.childrenOf id = b.childrenOf id := by
  have hnode := congrArg (·[id]?) h
  simp only [getElem?_frames] at hnode
  unfold childrenOf
  cases hn : a.nodes[id]? <;> cases hm : b.nodes[id]? <;> simp_all [Node.frame]

/-- The outline below a node depends on the frames alone. -/
theorem shapes_congr (h : a.frames = b.frames) (fuel id : Nat) :
    a.shapes fuel id = b.shapes fuel id := by
  induction fuel generalizing id with
  | zero => rfl
  | succ fuel ih =>
    rw [shapes, shapes, childrenOf_congr h]
    congr 1
    funext child
    have hnode := congrArg (·[child]?) h
    simp only [getElem?_frames] at hnode
    cases hn : a.nodes[child]? <;> cases hm : b.nodes[child]? <;> simp_all [Node.frame]

end Arena

/-- Trees with the same frames have the same outline, since frames tell codes and children. -/
theorem Tree.shape_congr {t u : Tree} (hroot : t.root = u.root)
    (h : t.arena.frames = u.arena.frames) :
    t.shape = u.shape := by
  rw [shape, shape, hroot, Arena.size_eq_of_frames h, Arena.shapes_congr h]

/-- The issues of codes without a descriptor. -/
def Journal.unknown (j : Journal) : List Diagnostic := j.diagnostics.ofKind .unknownCode

/-- The unknown codes that were met are those before and those among the issues that are added. -/
theorem Journal.unknown_addAll (j : Journal) (ds : List Diagnostic) :
    (j.addAll ds).unknown = j.unknown ++ ds.filter (·.kind == .unknownCode) := by
  rw [unknown, Diagnostics.ofKind, entries_addAll, List.filter_append]
  rfl

namespace Sweep

variable {db : Database} {matching : Matching} {s s' t : Sweep} {c d : Command} {role : Role}

/-- Two sweeps that differ in nothing but what commands hold and which lines are joined. -/
structure Alike (s s' : Sweep) : Prop where
  root : s.root = s'.root
  frames : s.arena.frames = s'.arena.frames
  scopes : s.scopes = s'.scopes
  absorber : s.absorber? = s'.absorber?
  position : s.position = s'.position
  unknown : s.journal.unknown = s'.journal.unknown

/-- In sweeps that are alike the next command goes under the same node. -/
theorem Alike.parent (h : Alike s s') : s.parent = s'.parent := by
  unfold Sweep.parent
  rw [h.scopes, h.root]

/-- Sweeps that are alike end with the same error if they end with one. -/
theorem Alike.outcome_eq_error_iff (h : Alike s s') {e : PageError} :
    s.outcome = .error e ↔ s'.outcome = .error e := by
  rw [Sweep.outcome_eq_error_iff, Sweep.outcome_eq_error_iff, h.scopes]

/-- Sweeps that are alike stay so if their nodes, scopes and absorbers do and the same codes among
the new issues are unknown. -/
theorem Alike.next (h : Alike s s') {arena arena' : Arena} (hframes : arena.frames = arena'.frames)
    {scopes scopes' : List Scope} (hscopes : scopes = scopes')
    {absorber? absorber?' : Option Absorber}
    (habsorber : absorber? = absorber?') {issues issues' : List Diagnostic}
    (hissues : issues.filter (·.kind == .unknownCode) = issues'.filter (·.kind == .unknownCode)) :
    Alike (s.next arena scopes absorber? issues) (s'.next arena' scopes' absorber?' issues') where
  root := h.root
  frames := hframes
  scopes := hscopes
  absorber := habsorber
  position := congrArg (· + 1) h.position
  unknown := by
    simp only [Sweep.next, Journal.unknown_addAll, h.unknown, hissues]

/-- If nothing pending takes a command in one of two sweeps that are alike, nothing takes a command
of the same code in the other. -/
theorem Frees.alike (hfree : s.Frees c) (h : Alike s s') (hcode : c.code = d.code) :
    s'.Frees d := by
  intro a ha
  have htakes := hfree a (h.absorber ▸ ha)
  unfold Absorber.takes at htakes ⊢
  rwa [hcode] at htakes

/-- If a command neither closes nor divides the innermost scope of one of two sweeps that are alike,
no command that looks alike does so in the other. -/
theorem Passes.alike (hpasses : s.Passes matching c) (h : Alike s s')
    (hview : matching.view c = matching.view d) : s'.Passes matching d := by
  intro kind hkind
  obtain ⟨hterm, hbranch⟩ := hpasses kind (h.scopes ▸ hkind)
  rw [Matching.code_eq_of_view hview] at hterm
  rw [ScopeKind.findBranch?_of_view hview] at hbranch
  exact ⟨hterm, hbranch⟩

/-- A line that a text command takes in changes no frame and is no unknown code. -/
theorem step_line (db : Database) (matching : Matching) {node : Nat} {continuation : CodeSlot}
    (habsorber : s.absorber? = some (.text node continuation))
    (hholds : continuation.holds c.code = true) :
    ∃ arena issues, s.step db matching c = s.next arena s.scopes s.absorber? issues ∧
      arena.frames = s.arena.frames ∧ issues.filter (·.kind == .unknownCode) = [] := by
  cases hjoin : (s.arena.commandAt node).joinLine? c with
  | some joined =>
    have hstep : Step db matching s c _ _ := .merged habsorber hholds hjoin
    have hframes := Arena.frames_withCommand (Command.code_of_joinLine? hjoin)
    exact ⟨_, _, hstep.eq.2.symm, hframes, rfl⟩
  | none =>
    have hstep : Step db matching s c _ _ := .dropped habsorber hholds hjoin
    exact ⟨_, _, hstep.eq.2.symm, rfl, rfl⟩

/-- Commands that look alike lead from sweeps that are alike to sweeps that are alike. -/
theorem Step.alike (hstep : Step db matching s c role t) (h : Alike s s')
    (hview : matching.view c = matching.view d) : Alike t (s'.step db matching d) := by
  have hcode := Matching.code_eq_of_view hview
  have hsize := Arena.size_eq_of_frames h.frames
  have hsentinel : c.isSentinel = d.isSentinel := by
    rw [Command.isSentinel, Command.isSentinel, hcode]
  have hlines : ∀ {node continuation}, s.absorber? = some (.text node continuation) →
      continuation.holds c.code = true → Alike t (s'.step db matching d) := by
    intro node continuation habsorber hholds
    obtain ⟨arena, issues, hnext, hframes, hissues⟩ :=
      step_line db matching habsorber hholds
    obtain ⟨arena', issues', hnext', hframes', hissues'⟩ :=
      step_line db matching (h.absorber ▸ habsorber) (hcode ▸ hholds)
    rw [hstep.eq.2, hnext, hnext']
    exact h.next (hframes.trans (h.frames.trans hframes'.symm)) h.scopes h.absorber
      (hissues.trans hissues'.symm)
  cases hstep with
  | merged habsorber hholds hjoin => exact hlines habsorber hholds
  | dropped habsorber hholds hjoin => exact hlines habsorber hholds
  | @companion node continuation habsorber hholds =>
    have hstep' : Step db matching s' d _ _ := .companion (h.absorber ▸ habsorber) (hcode ▸ hholds)
    rw [← hstep'.eq.2]
    exact h.next (Arena.frames_withCompanions h.frames node c d) h.scopes h.absorber rfl
  | terminator hfree hscopes hterm =>
    have hstep' : Step db matching s' d _ _ :=
      .terminator (hfree.alike h hcode) (h.scopes ▸ hscopes) (hcode ▸ hterm)
    rw [← hstep'.eq.2]
    exact h.next h.frames rfl rfl rfl
  | @delimiter scope outer hfree hscopes hterm hbranch =>
    have hstep' : Step db matching s' d _ _ :=
      .delimiter (hfree.alike h hcode) (h.scopes ▸ hscopes) (hcode ▸ hterm)
        (ScopeKind.findBranch?_of_view hview scope.kind ▸ hbranch)
    rw [← hstep'.eq.2, hsize]
    exact h.next (Arena.frames_extend h.frames hcode scope.node) rfl rfl rfl
  | padding hfree hpasses hpad =>
    have hstep' : Step db matching s' d _ _ :=
      .padding (hfree.alike h hcode) (hpasses.alike h hview) (hsentinel ▸ hpad)
    rw [← hstep'.eq.2]
    exact h.next h.frames h.scopes rfl rfl
  | @opener kind hfree hpasses hpad hkind =>
    have hstep' : Step db matching s' d _ _ :=
      .opener (hfree.alike h hcode) (hpasses.alike h hview) (hsentinel ▸ hpad) (hcode ▸ hkind)
    rw [← hstep'.eq.2, ← h.scopes, ← h.position, ← hsize, ← hcode, ← h.parent]
    exact h.next (Arena.frames_extend h.frames hcode s.parent) rfl rfl rfl
  | @text continuation hfree hpasses hpad hkind =>
    have hstep' : Step db matching s' d _ _ :=
      .text (hfree.alike h hcode) (hpasses.alike h hview) (hsentinel ▸ hpad) (hcode ▸ hkind)
    rw [← hstep'.eq.2, ← hsize, ← h.parent]
    exact h.next (Arena.frames_extend h.frames hcode s.parent) h.scopes rfl rfl
  | @route continuation hfree hpasses hpad hkind =>
    have hstep' : Step db matching s' d _ _ :=
      .route (hfree.alike h hcode) (hpasses.alike h hview) (hsentinel ▸ hpad) (hcode ▸ hkind)
    rw [← hstep'.eq.2, ← hsize, ← h.parent]
    exact h.next (Arena.frames_extend h.frames hcode s.parent) h.scopes rfl rfl
  | leaf hfree hpasses hpad hkind =>
    have hstep' : Step db matching s' d _ _ :=
      .leaf (hfree.alike h hcode) (hpasses.alike h hview) (hsentinel ▸ hpad) (hcode ▸ hkind)
    have hissues : c.leafIssues db (s.position + 1) = d.leafIssues db (s'.position + 1) := by
      rw [h.position, Command.leafIssues, Command.leafIssues, Command.unknownIssue,
        Command.unknownIssue, hcode]
    rw [← hstep'.eq.2, ← h.parent, ← hissues]
    exact h.next (Arena.frames_extend h.frames hcode s.parent) h.scopes rfl rfl

/-- Commands that look alike lead to sweeps that are alike, with as many scopes open at once. -/
theorem Alike.run (h : Alike s s') {cs ds : List Command}
    (hview : cs.map matching.view = ds.map matching.view) :
    Alike (s.run db matching cs) (s'.run db matching ds) ∧
      s.peak db matching cs = s'.peak db matching ds := by
  have hlength : s.scopes.length = s'.scopes.length := congrArg List.length h.scopes
  induction cs generalizing s s' ds with
  | nil =>
    rw [List.map_eq_nil_iff.1 hview.symm]
    exact ⟨h, hlength⟩
  | cons c cs ih =>
    cases ds with
    | nil => cases hview
    | cons d ds =>
      rw [List.map_cons, List.map_cons, List.cons.injEq] at hview
      have hstep := (step_spec db matching s c).alike h hview.1
      obtain ⟨hrun, hpeak⟩ := ih hstep hview.2 (congrArg List.length hstep.scopes)
      rw [run_cons, run_cons, peak, peak, hlength, hpeak]
      exact ⟨hrun, rfl⟩

end Sweep

open Sweep

/-- Two pages with commands that look alike come to the same: too deep a nesting, the same scope
that is not closed, or trees of the same shape with the same links and as many companions at each
node. Their unknown codes are the same in every case. -/
theorem parsePageWithin_congr {db : Database} {matching : Matching} {room : Nat}
    {logsUnknown : Bool} {log : Array LogRecord} {p q : List Command}
    (h : p.map matching.view = q.map matching.view) :
    let r := parsePageWithin room db matching (.empty logsUnknown) log p
    let r' := parsePageWithin room db matching (.empty logsUnknown) log q
    ((∃ position, r.outcome = .error (.nestingTooDeep position)) ↔
        ∃ position, r'.outcome = .error (.nestingTooDeep position)) ∧
      (∀ opener position terminator, r.outcome = .error (.unterminated opener position terminator) ↔
        r'.outcome = .error (.unterminated opener position terminator)) ∧
      (∀ t, r.outcome = .ok t → ∃ t', r'.outcome = .ok t' ∧ t.root = t'.root ∧
        t.arena.frames = t'.arena.frames ∧ t.shape = t'.shape) ∧
      ((∀ position, r.outcome ≠ .error (.nestingTooDeep position)) →
        r.diagnostics.ofKind .unknownCode = r'.diagnostics.ofKind .unknownCode) := by
  intro r r'
  have hblank : Alike blank blank := ⟨rfl, rfl, rfl, rfl, rfl, rfl⟩
  obtain ⟨halike, hpeak⟩ : Alike (pageEnd db matching p) (pageEnd db matching q) ∧
      pagePeak db matching p = pagePeak db matching q := hblank.run h
  have hp : pagePeak db matching p ≤ room → r.outcome = (pageEnd db matching p).outcome :=
    outcome_of_peak_le
  have hq : pagePeak db matching q ≤ room → r'.outcome = (pageEnd db matching q).outcome :=
    outcome_of_peak_le
  refine ⟨?_, fun opener position terminator => ?_, fun t ht => ?_, fun hfits => ?_⟩
  · rw [nestingTooDeep_iff, nestingTooDeep_iff, hpeak]
  · constructor
    · intro hr
      have hle : pagePeak db matching p ≤ room := peak_le_of_unterminated hr
      rw [hq (hpeak ▸ hle), ← halike.outcome_eq_error_iff, ← hp hle, hr]
    · intro hr'
      have hle : pagePeak db matching q ≤ room := peak_le_of_unterminated hr'
      rw [hp (hpeak.symm ▸ hle), halike.outcome_eq_error_iff, ← hq hle, hr']
  · have hle : pagePeak db matching p ≤ room := peak_le_of_ok ht
    rw [hp hle] at ht
    obtain ⟨hscopes, rfl⟩ := outcome_eq_ok_iff.1 ht
    have hscopes' := halike.scopes.symm.trans hscopes
    refine ⟨_, (hq (hpeak ▸ hle)).trans (outcome_eq_ok_iff.2 ⟨hscopes', rfl⟩), halike.root,
      halike.frames, ?_⟩
    exact Tree.shape_congr halike.root halike.frames
  · have hle : pagePeak db matching p ≤ room := peak_le_of_outcome rfl hfits
    have hunknown := halike.unknown
    rw [Journal.unknown, Journal.unknown, Diagnostics.ofKind, Diagnostics.ofKind, entries_pageEnd,
      entries_pageEnd] at hunknown
    rw [Diagnostics.ofKind, Diagnostics.ofKind, entries_of_peak_le hle,
      entries_of_peak_le (hpeak ▸ hle)]
    exact hunknown

/-- A page with a scope and texts, and the same page with all parameters taken away. -/
theorem parsePageWithin_congr_sample :
    let bare := Forest.sample.flatten.map (·.withParameters [])
    (Forest.sample.flatten.map (Matching.view .code) = bare.map (Matching.view .code) ∧
        (parsePageWithin 1 .sample .code (.empty true) #[] Forest.sample.flatten).outcome =
          .ok Forest.sample.tree) ∧
      ∃ t', (parsePageWithin 1 .sample .code (.empty true) #[] bare).outcome = .ok t' ∧
        Forest.sample.tree.root = t'.root ∧ Forest.sample.tree.arena.frames = t'.arena.frames ∧
        Forest.sample.tree.shape = t'.shape := by
  intro bare
  have hview :
      Forest.sample.flatten.map (Matching.view .code) = bare.map (Matching.view .code) := rfl
  have hok : (parsePageWithin 1 .sample .code (.empty true) #[] Forest.sample.flatten).outcome =
      .ok Forest.sample.tree := rfl
  exact ⟨⟨hview, hok⟩, (parsePageWithin_congr hview).2.2.1 Forest.sample.tree hok⟩

end PageOutline
