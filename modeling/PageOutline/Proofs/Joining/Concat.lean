import PageOutline.Proofs.Joining.Beside
import PageOutline.Proofs.Sweep.Page

/-!
# One page after another

A page that closes all its scopes leaves nothing behind but an absorber that may be pending. If that
does not take the first command of a second page, then the second page is read after the first as it
is read alone. Its nodes are numbered on and its indices are moved by the length of the first page.
-/

namespace PageOutline

/-- The same issue with `n` more commands before. -/
def Diagnostic.later (n : Int) (d : Diagnostic) : Diagnostic :=
  { d with position := d.position + n }

/-- The same scope with `k` more nodes and `n` more commands before. -/
def Scope.later (k : Nat) (n : Int) (scope : Scope) : Scope :=
  { scope with
    node := renumber k scope.node
    arm := renumber k scope.arm
    position := scope.position + n }

namespace Absorber

/-- The same absorber with `k` more nodes before. -/
def later (k : Nat) : Absorber → Absorber
  | text node continuation => text (renumber k node) continuation
  | route node continuation => route (renumber k node) continuation

/-- With more nodes before, an absorber takes the same commands. -/
@[simp] theorem takes_later (k : Nat) (a : Absorber) (c : Command) :
    (a.later k).takes c = a.takes c := by
  cases a <;> rfl

end Absorber

/-- A malformed line is reported at its index with the commands before counted. -/
theorem malformedLine_later (opener line : Command) (position n : Int) :
    (malformedLine opener position line).later n = malformedLine opener (position + n) line := rfl

/-- A leaf has its issue at its index with the commands before counted. -/
theorem Command.map_later_leafIssues (db : Database) (c : Command) (position n : Int) :
    (c.leafIssues db position).map (·.later n) = c.leafIssues db (position + n) := by
  unfold leafIssues
  split <;> rfl

namespace Sweep

variable {db : Database} {matching : Matching} {base s t : Sweep} {c : Command} {role : Role}
  {ledger : Ledger}

/-- A sweep as it stands when another sweep, that has closed its scopes, went before. -/
def after (base s : Sweep) : Sweep where
  root := base.root
  arena := base.arena.beside s.arena
  scopes := s.scopes.map (·.later (base.arena.size - 1) (base.position + 1))
  absorber? := s.absorber?.map (·.later (base.arena.size - 1))
  position := s.position + (base.position + 1)
  journal := base.journal.addAll
    (s.journal.diagnostics.entries.toList.map (·.later (base.position + 1)))

/-- After another sweep, one more command comes to what it comes to alone, with its nodes numbered
on and its issues moved. -/
theorem after_next (arena : Arena) (scopes : List Scope) (absorber? : Option Absorber)
    (issues : List Diagnostic) :
    base.after (s.next arena scopes absorber? issues) =
      (base.after s).next (base.arena.beside arena)
        (scopes.map (·.later (base.arena.size - 1) (base.position + 1)))
        (absorber?.map (·.later (base.arena.size - 1)))
        (issues.map (·.later (base.position + 1))) := by
  ext1
  case position => exact Int.add_right_comm ..
  case journal =>
    simp only [after, next, Journal.entries_addAll, List.map_append, Journal.addAll_append]
  all_goals rfl

/-- If nothing pending takes a command, nothing does after another sweep. -/
theorem Frees.after (h : s.Frees c) (base : Sweep) : (base.after s).Frees c := by
  rintro a ha
  obtain ⟨a, ha', rfl⟩ := Option.map_eq_some_iff.1 ha
  rw [Absorber.takes_later]
  exact h a ha'

/-- If a command neither closes nor divides the innermost scope, it does not after another sweep. -/
theorem Passes.after (h : s.Passes matching c) (base : Sweep) :
    (base.after s).Passes matching c := by
  intro kind hkind
  refine h kind ?_
  rwa [show (base.after s).scopes.head?.map (·.kind) = s.scopes.head?.map (·.kind) by
    cases hscopes : s.scopes <;> simp [Sweep.after, hscopes, Scope.later]] at hkind

/-- After another sweep commands go under the node with its new number. -/
theorem parent_after (hbase : base.root = 0) (hroot : s.root = 0) :
    (base.after s).parent = renumber (base.arena.size - 1) s.parent := by
  unfold parent after
  cases s.scopes with
  | nil => simp [hbase, hroot]
  | cons scope outer => rfl

/-- An absorber is a node other than the root. -/
theorem Books.absorber_pos (h : Books db matching s ledger) {a : Absorber}
    (ha : s.absorber? = some a) : 0 < a.node := by
  obtain ⟨d, hd, -⟩ := (h.absorber a ha).mem
  have hmem : a.node ∈ ledger.nodes := List.mem_filterMap.2 ⟨_, hd, rfl⟩
  rw [h.describes.nodes] at hmem
  exact (List.mem_range'_1.1 hmem).1

/-- What comes of a command does not depend on what went before. -/
theorem Step.after (h : Step db matching s c role t) (hbooks : Books db matching s ledger)
    (hroot : s.root = 0) (hbase : base.root = 0) (hsize : 0 < base.arena.size) :
    (base.after s).step db matching c = base.after t := by
  have hpos : 0 < s.arena.size := hbooks.describes.pos
  have hnew : (base.after s).arena.size = renumber (base.arena.size - 1) s.arena.size := by
    rw [renumber_of_pos hpos]
    show (base.arena.beside s.arena).size = _
    rw [Arena.size_beside]
    omega
  have hextend : ∀ parent, (base.after s).arena.extend (renumber (base.arena.size - 1) parent) c =
      base.arena.beside (s.arena.extend parent c) :=
    fun parent => Arena.extend_beside hsize hpos parent c
  have hparent := parent_after (s := s) hbase hroot
  have hlater : ∀ {a}, s.absorber? = some a →
      (base.after s).absorber? = some (a.later (base.arena.size - 1)) :=
    fun ha => congrArg (Option.map _) ha
  have hnested : ∀ {scope outer}, s.scopes = scope :: outer → (base.after s).scopes =
      (scope :: outer).map (·.later (base.arena.size - 1) (base.position + 1)) :=
    fun hscopes => congrArg (List.map _) hscopes
  cases h with
  | @merged node continuation joined habsorber hholds hjoin =>
    have hnode : 0 < node := hbooks.absorber_pos habsorber
    have hcommand := Arena.commandAt_beside (b := s.arena) hsize hnode
    have hstep : Step db matching (base.after s) c _ _ :=
      .merged (hlater habsorber) hholds ((congrArg (·.joinLine? c) hcommand).trans hjoin)
    rw [← hstep.eq.2, after_next]
    congr 1
    exact Arena.amend_beside hsize hnode fun _ => rfl
  | @dropped node continuation habsorber hholds hjoin =>
    have hnode : 0 < node := hbooks.absorber_pos habsorber
    have hcommand := Arena.commandAt_beside (b := s.arena) hsize hnode
    have hstep : Step db matching (base.after s) c _ _ :=
      .dropped (hlater habsorber) hholds ((congrArg (·.joinLine? c) hcommand).trans hjoin)
    rw [← hstep.eq.2, after_next, show (base.after s).arena.commandAt _ = _ from hcommand]
    congr 1
    rw [List.map_singleton, malformedLine_later]
    congr 2
    exact Int.add_right_comm ..
  | @companion node continuation habsorber hholds =>
    have hnode : 0 < node := hbooks.absorber_pos habsorber
    have hstep : Step db matching (base.after s) c _ _ := .companion (hlater habsorber) hholds
    rw [← hstep.eq.2, after_next]
    congr 1
    exact Arena.amend_beside hsize hnode fun _ => rfl
  | @terminator scope outer hfree hscopes hterm =>
    have hstep : Step db matching (base.after s) c _ _ :=
      .terminator (hfree.after base) (hnested hscopes) hterm
    rw [← hstep.eq.2, after_next]
    rfl
  | @delimiter scope outer hfree hscopes hterm hbranch =>
    have hstep : Step db matching (base.after s) c _ _ :=
      .delimiter (hfree.after base) (hnested hscopes) hterm hbranch
    rw [← hstep.eq.2, after_next, ← hextend, hnew]
    rfl
  | padding hfree hpasses hpad =>
    have hstep : Step db matching (base.after s) c _ _ :=
      .padding (hfree.after base) (hpasses.after base) hpad
    rw [← hstep.eq.2, after_next]
    rfl
  | opener hfree hpasses hpad hkind =>
    have hstep : Step db matching (base.after s) c _ _ :=
      .opener (hfree.after base) (hpasses.after base) hpad hkind
    rw [← hstep.eq.2, after_next, ← hextend, hnew, hparent]
    congr 1
    rw [List.map_cons]
    congr 2
    exact Int.add_right_comm ..
  | text hfree hpasses hpad hkind =>
    have hstep : Step db matching (base.after s) c _ _ :=
      .text (hfree.after base) (hpasses.after base) hpad hkind
    rw [← hstep.eq.2, after_next, ← hextend, hnew, hparent]
    rfl
  | route hfree hpasses hpad hkind =>
    have hstep : Step db matching (base.after s) c _ _ :=
      .route (hfree.after base) (hpasses.after base) hpad hkind
    rw [← hstep.eq.2, after_next, ← hextend, hnew, hparent]
    rfl
  | leaf hfree hpasses hpad hkind =>
    have hstep : Step db matching (base.after s) c _ _ :=
      .leaf (hfree.after base) (hpasses.after base) hpad hkind
    rw [← hstep.eq.2, after_next, ← hextend, hparent, Command.map_later_leafIssues]
    congr 2
    exact Int.add_right_comm ..

/-- A step leaves the root. -/
theorem Step.root (h : Step db matching s c role t) : t.root = s.root := by
  cases h <;> rfl

/-- Reading commands leaves the root. -/
theorem root_run (s : Sweep) (cs : List Command) : (s.run db matching cs).root = s.root := by
  induction cs generalizing s with
  | nil => rfl
  | cons c cs ih => rw [run_cons, ih, (step_spec db matching s c).root]

/-- Commands that are read after another sweep come to what they come to alone, and open as many
scopes at once. -/
theorem run_after (hbooks : Books db matching s ledger) (hroot : s.root = 0) (hbase : base.root = 0)
    (hsize : 0 < base.arena.size) (cs : List Command) :
    (base.after s).run db matching cs = base.after (s.run db matching cs) ∧
      (base.after s).peak db matching cs = s.peak db matching cs := by
  have hscopes : (base.after s).scopes.length = s.scopes.length := List.length_map ..
  induction cs generalizing s ledger with
  | nil => exact ⟨rfl, hscopes⟩
  | cons c cs ih =>
    have hspec := step_spec db matching s c
    obtain ⟨hrun, hpeak⟩ := ih (hspec.books hbooks) (hspec.root.trans hroot) (List.length_map ..)
    rw [run_cons, run_cons, peak, peak, hspec.after hbooks hroot hbase hsize, hscopes]
    exact ⟨hrun, congrArg _ hpeak⟩

/-- Nothing has been read yet after a sweep that has closed its scopes and has nothing pending. -/
theorem after_blank (h : base.scopes = []) : base.after blank = base.release := by
  have harena : base.arena.beside blank.arena = base.arena := Arena.beside_root base.arena
  ext1
  case arena => exact harena
  case scopes => exact h.symm
  case position =>
    show -1 + (base.position + 1) = base.position
    omega
  all_goals rfl

/-- What is pending plays no part when it does not take the next command. -/
theorem run_of_frees (db : Database) (matching : Matching) {cs : List Command}
    (h : ∀ c ∈ cs.head?, s.Frees c) :
    (s.run db matching cs).release = (s.release.run db matching cs).release ∧
      s.peak db matching cs = s.release.peak db matching cs := by
  cases cs with
  | nil => exact ⟨rfl, rfl⟩
  | cons c cs =>
    have hreleased : s.release.Frees c := fun a ha => by cases ha
    have hstep : s.release.step db matching c = s.step db matching c := by
      rw [(step_of_frees db matching hreleased).2, (step_of_frees db matching (h c rfl)).2]
      rfl
    rw [run_cons, run_cons, peak, peak, hstep]
    exact ⟨rfl, rfl⟩

section Pages

variable {p q : List Command}

/-- A page is read after another as it is read alone. -/
theorem pageEnd_append (hclosed : (pageEnd db matching p).scopes = [])
    (hfree : ∀ c ∈ q.head?, (pageEnd db matching p).Frees c) :
    (pageEnd db matching (p ++ q)).release =
        ((pageEnd db matching p).after (pageEnd db matching q)).release ∧
      pagePeak db matching (p ++ q) = max (pagePeak db matching p) (pagePeak db matching q) := by
  have hbooks := books_pageEnd db matching p
  have hroot : (pageEnd db matching p).root = 0 := root_run blank p
  obtain ⟨hrun, hpeak⟩ := run_after (books_start db matching (.empty true) #[]) rfl hroot
    hbooks.describes.pos q
  obtain ⟨hrun', hpeak'⟩ := run_of_frees db matching hfree
  rw [show start (.empty true) #[] = blank from rfl, after_blank hclosed] at hrun hpeak
  constructor
  · rw [pageEnd, run_append]
    exact hrun'.trans (congrArg release hrun)
  · rw [pagePeak, peak_append]
    exact congrArg _ (hpeak'.trans hpeak)

/-- Two pages in a row have the issues of the first and then those of the second, whose indices go
on from the first. -/
theorem pageIssues_append (hclosed : (pageEnd db matching p).scopes = [])
    (hfree : ∀ c ∈ q.head?, (pageEnd db matching p).Frees c) :
    pageIssues db matching (p ++ q) =
      pageIssues db matching p ++ (pageIssues db matching q).map (·.later p.length) := by
  have hposition := (books_pageEnd db matching p).position
  have hend := congrArg (·.journal.diagnostics.entries.toList) (pageEnd_append hclosed hfree).1
  simp only [journal_release, after, Journal.entries_addAll, entries_pageEnd, hposition,
    length_pageLedger] at hend
  exact hend

end Pages

end Sweep

/-- Whether a command would be taken in by a text command or a route at the end of a page, after
what that has taken in already. -/
def Ledger.TakesNext (db : Database) (ledger : Ledger) (d : Command) : Prop :=
  ∃ (before : Ledger) (c : Command) (node : Nat) (taken : Ledger) (continuation : CodeSlot),
    ledger = before ++ (c, .leaf node) :: taken ∧ (∀ e ∈ taken, e.2.taker? = some node) ∧
      (db.kind? c.code = some (.text continuation) ∨ db.kind? c.code = some (.route continuation)) ∧
      continuation.holds d.code = true

open Sweep

variable {db : Database} {matching : Matching}

/-- What is pending is found at the end of the ledger. -/
theorem Sweep.Books.frees {s : Sweep} {ledger : Ledger} {d : Command}
    (h : Books db matching s ledger) (hd : ¬ledger.TakesNext db d) : s.Frees d := by
  intro a ha
  obtain ⟨before, c, taken, n, hledger, -, hkind, hrecords, -⟩ := h.absorber a ha
  have hid : n.id = a.node := (Option.some.inj hrecords.node).symm
  have htaken : ∀ e ∈ taken, e.2.taker? = some a.node := hid ▸ hrecords.taker
  refine Bool.eq_false_iff.2 fun htakes => hd ?_
  cases a with
  | text node continuation =>
    exact ⟨before, c, node, taken, continuation, hledger, htaken, Or.inl hkind, htakes⟩
  | route node continuation =>
    exact ⟨before, c, node, taken, continuation, hledger, htaken, Or.inr hkind, htakes⟩

/-- A walk over two trees side by side visits the first and then the second, and they nest as
before. -/
theorem Tree.beside_of_parsePageWithin {room room' : Nat} {diagnostics diagnostics' : Diagnostics}
    {log log' : Array LogRecord} {p q : List Command} {t u : Tree}
    (ht : (parsePageWithin room db matching diagnostics log p).outcome = .ok t)
    (hu : (parsePageWithin room' db matching diagnostics' log' q).outcome = .ok u) :
    (t.beside u).topLevel = t.topLevel ++ u.topLevel.map (renumber t.size) ∧
      (t.beside u).shape = t.shape ++ u.shape ∧ (t.beside u).items = t.items ++ u.items := by
  obtain ⟨f, -, -, hf⟩ := Forest.exists_of_parsePageWithin ht
  obtain ⟨g, -, -, hg⟩ := Forest.exists_of_parsePageWithin hu
  rw [hf] at ht
  rw [hg] at hu
  cases ht
  cases hu
  rw [← Forest.tree_append]
  refine ⟨?_, ?_, ?_⟩
  · rw [Forest.topLevel_tree, Forest.topLevel_tree, Forest.topLevel_tree, Forest.size_tree,
      Forest.roots_append, Forest.roots_add g 1 Nat.zero_lt_one]
  · rw [Forest.shape_tree, Forest.shape_tree, Forest.shape_tree, Forest.shapes_append]
  · rw [Forest.items_tree, Forest.items_tree, Forest.items_tree, Forest.items_append]

/-- Where both pages fit into the room, the second is read as it is read alone. -/
theorem outcome_append_of_peak_le {room : Nat} (logsUnknown : Bool) (log : Array LogRecord)
    {p q : List Command} (hclosed : (pageEnd db matching p).scopes = [])
    (hfree : ∀ c ∈ q.head?, (pageEnd db matching p).Frees c)
    (hp : pagePeak db matching p ≤ room) (hq : pagePeak db matching q ≤ room) :
    let parse := parsePageWithin room db matching (.empty logsUnknown) log
    (parse (p ++ q)).outcome =
        ((pageEnd db matching p).after (pageEnd db matching q)).outcome ∧
      (parse (p ++ q)).diagnostics.entries.toList = (parse p).diagnostics.entries.toList ++
        (parse q).diagnostics.entries.toList.map (·.later p.length) := by
  intro parse
  obtain ⟨hend, hmax⟩ := pageEnd_append hclosed hfree
  have hboth : pagePeak db matching (p ++ q) ≤ room := by omega
  constructor
  · have houtcome := congrArg outcome hend
    rw [outcome_release, outcome_release] at houtcome
    exact (outcome_of_peak_le hboth).trans houtcome
  · simp only [parse]
    rw [entries_of_peak_le hboth, pageIssues_append hclosed hfree, entries_of_peak_le hp,
      entries_of_peak_le hq]
    rfl

/-- Two pages one after the other come to what each comes to alone when the first parses and the end
of it does not take in what the second begins with: the trees side by side, or the error of the
second page with its position moved on, and the issues of both. -/
theorem parsePageWithin_append {room : Nat} {logsUnknown : Bool} {log : Array LogRecord}
    {p q : List Command} {t : Tree}
    (hp : (parsePageWithin room db matching (.empty logsUnknown) log p).outcome = .ok t)
    (hq : ∀ c ∈ q.head?, ¬(pageLedger db matching p).TakesNext db c) :
    let first := parsePageWithin room db matching (.empty logsUnknown) log p
    let second := parsePageWithin room db matching (.empty logsUnknown) log q
    let both := parsePageWithin room db matching (.empty logsUnknown) log (p ++ q)
    let entries := first.diagnostics.entries.toList ++
      second.diagnostics.entries.toList.map (·.later p.length)
    (∀ u, second.outcome = .ok u →
        both.outcome = .ok (t.beside u) ∧ both.diagnostics.entries.toList = entries ∧
          (t.beside u).topLevel = t.topLevel ++ u.topLevel.map (renumber t.size) ∧
          (t.beside u).shape = t.shape ++ u.shape ∧ (t.beside u).items = t.items ++ u.items) ∧
      (∀ opener position terminator,
        second.outcome = .error (.unterminated opener position terminator) →
        both.outcome = .error (.unterminated opener (position + p.length) terminator) ∧
          both.diagnostics.entries.toList = entries) ∧
      ((∃ position, both.outcome = .error (.nestingTooDeep position)) ↔
        ∃ position, second.outcome = .error (.nestingTooDeep position)) := by
  intro first second both entries
  have hbooks := books_pageEnd db matching p
  have hpeak : pagePeak db matching p ≤ room := peak_le_of_ok hp
  obtain ⟨hclosed, rfl⟩ := outcome_eq_ok_iff.1 ((outcome_of_peak_le hpeak).symm.trans hp)
  have hfree : ∀ c ∈ q.head?, (pageEnd db matching p).Frees c := fun c hc => hbooks.frees (hq c hc)
  obtain ⟨-, hmax⟩ := pageEnd_append hclosed hfree
  refine ⟨fun u hu => ?_, fun opener position terminator hopen => ?_, ?_⟩
  · have hle : pagePeak db matching q ≤ room := peak_le_of_ok hu
    obtain ⟨houtcome, hentries⟩ :=
      outcome_append_of_peak_le logsUnknown log hclosed hfree hpeak hle
    have hbeside := Tree.beside_of_parsePageWithin hp hu
    rw [show second.outcome = _ from outcome_of_peak_le hle] at hu
    obtain ⟨hclosed', rfl⟩ := outcome_eq_ok_iff.1 hu
    refine ⟨?_, hentries, hbeside⟩
    rw [houtcome, outcome_eq_ok_iff, after, hclosed']
    exact ⟨rfl, rfl⟩
  · have hle : pagePeak db matching q ≤ room := peak_le_of_unterminated hopen
    obtain ⟨houtcome, hentries⟩ :=
      outcome_append_of_peak_le logsUnknown log hclosed hfree hpeak hle
    have hposition : (pageEnd db matching p).position + 1 = p.length := by
      rw [hbooks.position, length_pageLedger]
    rw [show second.outcome = _ from outcome_of_peak_le hle] at hopen
    obtain ⟨scope, outer, hscopes, herror⟩ := outcome_eq_error_iff.1 hopen
    cases herror
    refine ⟨?_, hentries⟩
    rw [houtcome, outcome_eq_error_iff, after, hscopes, ← hposition]
    exact ⟨_, _, rfl, rfl⟩
  · rw [nestingTooDeep_iff, nestingTooDeep_iff, hmax]
    omega

/-- A closed page before one that ends within its scope, which is then reported at a later index. -/
theorem parsePageWithin_append_sample :
    ((parsePageWithin 1 .sample .code (.empty true) #[] Forest.sample.flatten).outcome =
          .ok Forest.sample.tree ∧
        ∀ c ∈ unclosedSample.head?,
          ¬(Sweep.pageLedger .sample .code Forest.sample.flatten).TakesNext .sample c) ∧
      (parsePageWithin 1 .sample .code (.empty true) #[] unclosedSample).outcome =
        .error (.unterminated 1 0 (.int 3)) ∧
      (parsePageWithin 1 .sample .code (.empty true) #[]
          (Forest.sample.flatten ++ unclosedSample)).outcome =
        .error (.unterminated 1 (0 + Forest.sample.flatten.length) (.int 3)) := by
  have hp : (parsePageWithin 1 .sample .code (.empty true) #[] Forest.sample.flatten).outcome =
      .ok Forest.sample.tree := rfl
  have hq : ∀ c ∈ unclosedSample.head?,
      ¬(Sweep.pageLedger .sample .code Forest.sample.flatten).TakesNext .sample c := by
    rintro c hc ⟨before, d, node, taken, continuation, -, -, hkind, hholds⟩
    have hcode : c.code = 1 := congrArg Command.code (Option.some.inj hc).symm
    rw [hcode] at hholds
    rcases Database.continuation_sample hkind with rfl | rfl
    · exact absurd hholds (by decide)
    · exact absurd hholds (by decide)
  have hsecond : (parsePageWithin 1 .sample .code (.empty true) #[] unclosedSample).outcome =
      .error (.unterminated 1 0 (.int 3)) := rfl
  exact ⟨⟨hp, hq⟩, hsecond, ((parsePageWithin_append hp hq).2.1 1 0 (.int 3) hsecond).1⟩
end PageOutline
