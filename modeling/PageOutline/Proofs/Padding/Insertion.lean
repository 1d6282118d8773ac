import PageOutline.Proofs.Joining.Concat
import PageOutline.Proofs.Padding.Nodes

/-!
# Padding is transparent

One more command of padding in a page changes nothing but indices, as long as no descriptor names
its code and it does not cut off lines or entries from what takes them in. The sweep that has read
it stands where the other one stands, with nothing pending and with later indices, and both read on
in step.
-/

namespace PageOutline

/-- Whether no code that a kind of command names is that of padding. -/
def CommandKind.sparesPadding : CommandKind → Bool
  | .scope kind => !kind.terminator.code.holds Command.paddingCode && !kind.dividesAtPadding
  | .text continuation => !continuation.holds Command.paddingCode
  | .route continuation => !continuation.holds Command.paddingCode
  | .plain _ => true
  | .mark => true

/-- No terminator, delimiter or continuation code is that of padding. -/
def Database.SparesPadding (db : Database) : Prop :=
  ∀ (code : Code) (kind : CommandKind), db.kind? code = some kind → kind.sparesPadding = true

/-- The index of a command of a page when one more command is put in at index `n`. -/
def movedFrom (n i : Int) : Int := if i < n then i else i + 1

/-- What comes before the new command stays where it is. -/
theorem movedFrom_of_lt {n i : Int} (h : i < n) : movedFrom n i = i := if_pos h

/-- What comes after the new command is one further. -/
theorem movedFrom_of_le {n i : Int} (h : n ≤ i) : movedFrom n i = i + 1 :=
  if_neg (Int.not_lt.2 h)

/-- The same issue when one more command is put in at index `n`. -/
def Diagnostic.movedFrom (n : Int) (d : Diagnostic) : Diagnostic :=
  { d with position := PageOutline.movedFrom n d.position }

/-- The same scope when one more command is put in at index `n`. -/
def Scope.movedFrom (n : Int) (scope : Scope) : Scope :=
  { scope with position := PageOutline.movedFrom n scope.position }

/-- The same error when one more command is put in at index `n`. -/
def PageError.movedFrom (n : Int) : PageError → PageError
  | .unterminated opener position terminator =>
    .unterminated opener (PageOutline.movedFrom n position) terminator
  | .nestingTooDeep position => .nestingTooDeep (PageOutline.movedFrom n position)
  | .nodeNotFound id => .nodeNotFound id
  | .noParameter index => .noParameter index

/-- A malformed line after the new command is reported one further. -/
theorem malformedLine_movedFrom {n position : Int} (h : n ≤ position) (opener line : Command) :
    (malformedLine opener position line).movedFrom n =
      malformedLine opener (position + 1) line := by
  simp [Diagnostic.movedFrom, malformedLine, movedFrom_of_le h]

/-- The issues of a command after the new one are reported one further. -/
theorem Command.map_movedFrom_leafIssues {n position : Int} (h : n ≤ position) (db : Database)
    (c : Command) :
    (c.leafIssues db position).map (·.movedFrom n) = c.leafIssues db (position + 1) := by
  unfold leafIssues
  split
  · simp [Diagnostic.movedFrom, unknownIssue, movedFrom_of_le h]
  · rfl

/-- An issue is counted as before when its index is moved. -/
theorem Journal.unknownCodes_addAll_movedFrom (n : Int) {j j' : Journal}
    (h : j'.diagnostics.unknownCodes = j.diagnostics.unknownCodes) (ds : List Diagnostic) :
    (j'.addAll (ds.map (·.movedFrom n))).diagnostics.unknownCodes =
      (j.addAll ds).diagnostics.unknownCodes := by
  induction ds generalizing j j' with
  | nil => exact h
  | cons d ds ih =>
    apply ih
    simp only [add, Diagnostics.add, Diagnostics.unknownCount, Diagnostic.movedFrom, h]

namespace Sweep

variable {db : Database} {matching : Matching} {s t : Sweep} {c z : Command} {role : Role}
  {ledger : Ledger} {n : Int}

/-- No absorber takes padding where no continuation code is that of padding. -/
theorem Books.frees_padding (h : Books db matching s ledger) (hspares : db.SparesPadding)
    (hpad : z.isSentinel = true) : s.Frees z := by
  have hcode : z.code = Command.paddingCode := Command.isSentinel_iff.1 hpad
  intro a ha
  obtain ⟨d, -, hkind⟩ := (h.absorber a ha).mem
  have hspared := hspares d.code a.kind hkind
  cases a with
  | text node continuation | route node continuation =>
    rw [Absorber.takes, hcode]
    simpa [Absorber.kind, CommandKind.sparesPadding] using hspared

/-- Padding belongs to the body where no terminator or delimiter has its code. -/
theorem Books.passes_padding (h : Books db matching s ledger) (hspares : db.SparesPadding)
    (hpad : z.isSentinel = true) : s.Passes matching z := by
  intro kind hkind
  obtain ⟨scope, hscope, rfl⟩ := Option.map_eq_some_iff.1 hkind
  obtain ⟨opener, -, hopener⟩ := (h.scopes scope (List.mem_of_mem_head? hscope)).mem
  have hspared := hspares opener.code _ hopener
  simp only [CommandKind.sparesPadding, Bool.and_eq_true, Bool.not_eq_true'] at hspared
  obtain ⟨hterm, hdivides⟩ := hspared
  constructor
  · rw [Command.isSentinel_iff.1 hpad, hterm]
    exact Bool.false_ne_true
  · intro hbranch
    rw [ScopeKind.dividesAtPadding_of_findBranch? hpad hbranch] at hdivides
    cases hdivides

/-- A sweep as it stands when one more command is read at index `n`. -/
def movedFrom (n : Int) (s : Sweep) : Sweep :=
  { s with
    scopes := s.scopes.map (·.movedFrom n)
    position := s.position + 1
    journal := blank.journal.addAll
      (s.journal.diagnostics.entries.toList.map (·.movedFrom n)) }

/-- One more command may be counted in before or after going on to the next one. -/
theorem movedFrom_next (n : Int) (s : Sweep) (arena : Arena) (scopes : List Scope)
    (absorber? : Option Absorber) (issues : List Diagnostic) :
    (s.next arena scopes absorber? issues).movedFrom n =
      (s.movedFrom n).next arena (scopes.map (·.movedFrom n)) absorber?
        (issues.map (·.movedFrom n)) := by
  ext1
  case journal =>
    simp only [movedFrom, next, Journal.entries_addAll, List.map_append, Journal.addAll_append]
  all_goals rfl

/-- One more command may be counted in before or after dropping what is pending. -/
@[simp] theorem movedFrom_release (n : Int) (s : Sweep) :
    s.release.movedFrom n = (s.movedFrom n).release := rfl

/-- A command that belongs to the body of a scope does so after one more command. -/
theorem Passes.movedFrom (h : s.Passes matching c) (n : Int) :
    (s.movedFrom n).Passes matching c := by
  intro kind hkind
  refine h kind ?_
  rwa [show (s.movedFrom n).scopes.head?.map (·.kind) = s.scopes.head?.map (·.kind) by
    cases hscopes : s.scopes <;> simp [Sweep.movedFrom, hscopes, Scope.movedFrom]] at hkind

/-- One more command does not change which node receives commands. -/
theorem parent_movedFrom (n : Int) (s : Sweep) : (s.movedFrom n).parent = s.parent := by
  unfold parent movedFrom
  cases s.scopes <;> rfl

/-- The commands from index `n` on are read after one more command as they are read without it. -/
theorem Step.movedFrom (h : Step db matching s c role t) (hn : n ≤ s.position + 1) :
    (s.movedFrom n).step db matching c = t.movedFrom n := by
  have hparent := parent_movedFrom n s
  have hnested : ∀ {scope outer}, s.scopes = scope :: outer →
      (s.movedFrom n).scopes = (scope :: outer).map (·.movedFrom n) :=
    fun hscopes => congrArg (List.map _) hscopes
  cases h with
  | merged habsorber hholds hjoin =>
    have hstep : Step db matching (s.movedFrom n) c _ _ := .merged habsorber hholds hjoin
    rw [← hstep.eq.2, movedFrom_next]
    rfl
  | dropped habsorber hholds hjoin =>
    have hstep : Step db matching (s.movedFrom n) c _ _ := .dropped habsorber hholds hjoin
    rw [← hstep.eq.2, movedFrom_next, List.map_singleton, malformedLine_movedFrom hn]
    rfl
  | companion habsorber hholds =>
    have hstep : Step db matching (s.movedFrom n) c _ _ := .companion habsorber hholds
    rw [← hstep.eq.2, movedFrom_next]
    rfl
  | terminator hfree hscopes hterm =>
    have hstep : Step db matching (s.movedFrom n) c _ _ := .terminator hfree (hnested hscopes) hterm
    rw [← hstep.eq.2, movedFrom_next]
    rfl
  | delimiter hfree hscopes hterm hbranch =>
    have hstep : Step db matching (s.movedFrom n) c _ _ :=
      .delimiter hfree (hnested hscopes) hterm hbranch
    rw [← hstep.eq.2, movedFrom_next]
    rfl
  | padding hfree hpasses hpad =>
    have hstep : Step db matching (s.movedFrom n) c _ _ := .padding hfree (hpasses.movedFrom n) hpad
    rw [← hstep.eq.2, movedFrom_next]
    rfl
  | @opener kind hfree hpasses hpad hkind =>
    have hstep : Step db matching (s.movedFrom n) c _ _ :=
      .opener hfree (hpasses.movedFrom n) hpad hkind
    have hopened : Scope.movedFrom n ⟨s.arena.size, s.arena.size, kind, c.code, s.position + 1⟩ =
        ⟨s.arena.size, s.arena.size, kind, c.code, s.position + 1 + 1⟩ := by
      rw [Scope.movedFrom, movedFrom_of_le hn]
    rw [← hstep.eq.2, movedFrom_next, hparent, List.map_cons, hopened]
    rfl
  | text hfree hpasses hpad hkind =>
    have hstep : Step db matching (s.movedFrom n) c _ _ :=
      .text hfree (hpasses.movedFrom n) hpad hkind
    rw [← hstep.eq.2, movedFrom_next, hparent]
    rfl
  | route hfree hpasses hpad hkind =>
    have hstep : Step db matching (s.movedFrom n) c _ _ :=
      .route hfree (hpasses.movedFrom n) hpad hkind
    rw [← hstep.eq.2, movedFrom_next, hparent]
    rfl
  | leaf hfree hpasses hpad hkind =>
    have hstep : Step db matching (s.movedFrom n) c _ _ :=
      .leaf hfree (hpasses.movedFrom n) hpad hkind
    rw [← hstep.eq.2, movedFrom_next, hparent, Command.map_movedFrom_leafIssues hn]
    rfl

/-- What is read from index `n` on after one more command comes to what it comes to without that
command, and opens as many scopes at once. -/
theorem run_movedFrom (db : Database) (matching : Matching) {s : Sweep} (hn : n ≤ s.position + 1)
    (cs : List Command) :
    (s.movedFrom n).run db matching cs = (s.run db matching cs).movedFrom n ∧
      (s.movedFrom n).peak db matching cs = s.peak db matching cs := by
  have hscopes : (s.movedFrom n).scopes.length = s.scopes.length := List.length_map ..
  induction cs generalizing s with
  | nil => exact ⟨rfl, hscopes⟩
  | cons c cs ih =>
    have hspec := step_spec db matching s c
    have hposition := hspec.position
    obtain ⟨hrun, hpeak⟩ := ih (s := s.step db matching c) (by omega) (List.length_map ..)
    rw [run_cons, run_cons, peak, peak, hspec.movedFrom hn, hscopes]
    exact ⟨hrun, congrArg _ hpeak⟩

end Sweep

open Sweep

variable {db : Database} {matching : Matching} {p q : List Command} {z : Command}

/-- The issues of a page keep their indices when a command is put in after it. -/
theorem map_movedFrom_pageIssues (db : Database) (matching : Matching) (p : List Command) :
    (pageIssues db matching p).map (·.movedFrom p.length) = pageIssues db matching p := by
  have hsame : ∀ d ∈ pageIssues db matching p, d.movedFrom p.length = d := by
    intro d hd
    obtain ⟨i, c, role, hentry, hposition, -⟩ := (mem_pageIssues_iff db matching p).1 hd
    have hlt : i < (pageLedger db matching p).length := (List.getElem?_eq_some_iff.1 hentry).1
    rw [length_pageLedger] at hlt
    rw [Diagnostic.movedFrom, movedFrom_of_lt (by omega)]
  exact (List.map_congr_left hsame).trans (List.map_id _)

/-- The scopes that a page leaves open keep their indices when a command is put in after it. -/
theorem map_movedFrom_scopes (db : Database) (matching : Matching) (p : List Command) :
    (pageEnd db matching p).scopes.map (·.movedFrom p.length) = (pageEnd db matching p).scopes := by
  have hsame : ∀ scope ∈ (pageEnd db matching p).scopes, scope.movedFrom p.length = scope := by
    intro scope hscope
    have hlt := ((books_pageEnd db matching p).scopes scope hscope).position_lt
    rw [length_pageLedger] at hlt
    rw [Scope.movedFrom, movedFrom_of_lt hlt]
  exact (List.map_congr_left hsame).trans (List.map_id _)

/-- After padding that nothing names a sweep stands where it stood before, with nothing pending. -/
theorem step_padding_pageEnd (hspares : db.SparesPadding) (hpad : z.isSentinel = true)
    (p : List Command) :
    (pageEnd db matching p).step db matching z =
      (pageEnd db matching p).release.movedFrom p.length := by
  have hbooks := books_pageEnd db matching p
  have hstep : Step db matching (pageEnd db matching p) z _ _ :=
    .padding (hbooks.frees_padding hspares hpad) (hbooks.passes_padding hspares hpad) hpad
  have hjournal : (pageEnd db matching p).journal =
      blank.journal.addAll (pageIssues db matching p) := journal_run blank p
  have hmoved : (pageEnd db matching p).journal = blank.journal.addAll
      ((pageEnd db matching p).journal.diagnostics.entries.toList.map (·.movedFrom p.length)) := by
    rw [entries_pageEnd, map_movedFrom_pageIssues]
    exact hjournal
  rw [← hstep.eq.2]
  ext1
  case scopes => exact (map_movedFrom_scopes db matching p).symm
  case journal => exact hmoved
  all_goals rfl

/-- A page with one more command of padding is read like the page without it, with later indices
from there on. -/
theorem pageEnd_insert (hspares : db.SparesPadding) (hpad : z.isSentinel = true)
    (hfree : ∀ c ∈ q.head?, (pageEnd db matching p).Frees c) :
    (pageEnd db matching (p ++ z :: q)).release =
        ((pageEnd db matching (p ++ q)).movedFrom p.length).release ∧
      pagePeak db matching (p ++ z :: q) = pagePeak db matching (p ++ q) := by
  have hstep : (pageEnd db matching p).step db matching z =
      (pageEnd db matching p).release.movedFrom p.length := step_padding_pageEnd hspares hpad p
  have hposition : (pageEnd db matching p).position + 1 = p.length := by
    rw [(books_pageEnd db matching p).position, length_pageLedger]
  obtain ⟨hrun, hpeak⟩ := run_movedFrom db matching (s := (pageEnd db matching p).release)
    (n := p.length) (Int.le_of_eq hposition.symm) q
  obtain ⟨hreleased, hpeak'⟩ := run_of_frees db matching hfree
  constructor
  · have hinserted : pageEnd db matching (p ++ z :: q) =
        ((pageEnd db matching p).release.run db matching q).movedFrom p.length := by
      rw [pageEnd, run_append, run_cons]
      exact (congrArg (·.run db matching q) hstep).trans hrun
    have hwithout : pageEnd db matching (p ++ q) = (pageEnd db matching p).run db matching q :=
      run_append blank p q
    rw [hinserted, hwithout, ← movedFrom_release, ← movedFrom_release, hreleased]
  · have hopen :
        (pageEnd db matching p).scopes.length ≤ (pageEnd db matching p).peak db matching q :=
      length_scopes_le_peak ..
    have hafter : (pageEnd db matching p).peak db matching (z :: q) =
        (pageEnd db matching p).peak db matching q := by
      rw [peak, hstep, hpeak, ← hpeak']
      exact Nat.max_eq_right hopen
    rw [pagePeak, pagePeak, peak_append, peak_append]
    exact congrArg _ hafter

/-- What a sweep comes to is moved with it. -/
theorem Sweep.outcome_movedFrom (n : Int) (s : Sweep) :
    (s.movedFrom n).outcome = s.outcome.mapError (·.movedFrom n) := by
  cases hscopes : s.scopes with
  | nil =>
    simp only [outcome, failure?, Sweep.movedFrom, hscopes, List.map_nil]
    rfl
  | cons scope outer =>
    simp only [outcome, failure?, Sweep.movedFrom, hscopes, List.map_cons]
    rfl

/-- The entry of a command is told by the sweep over the part of the page before it. -/
theorem getElem?_pageLedger_append (db : Database) (matching : Matching) (p : List Command)
    (c : Command) (q : List Command) :
    (pageLedger db matching (p ++ c :: q))[p.length]? =
      some (c, (pageEnd db matching p).role db matching c) := by
  have hledger : pageLedger db matching (p ++ c :: q) =
      pageLedger db matching p ++ (pageEnd db matching p).ledger db matching (c :: q) :=
    ledger_append ..
  rw [hledger, ← length_pageLedger db matching p, List.getElem?_append_right (Nat.le_refl _),
    Nat.sub_self]
  rfl

/-- Where a text or a route does not take in the next command, nothing is pending that takes it. -/
theorem frees_of_pageLedger
    (h : ∀ e ∈ (pageLedger db matching (p ++ q))[p.length]?, e.2.taker? = none) :
    ∀ c ∈ q.head?, (pageEnd db matching p).Frees c := by
  cases q with
  | nil => simp
  | cons c q =>
    rintro _ ⟨⟩
    have htaker := h _ (getElem?_pageLedger_append db matching p c q)
    exact (step_spec db matching (pageEnd db matching p) c).frees htaker

/-- Padding put into a page, though not before a command that a text or a route takes in, changes
nothing but indices: the page gives the same tree, or it is reported with the same scope, and it has
the same issues, where each index from that of the padding on is later by one. -/
theorem parsePageWithin_insert_padding {room : Nat} {logsUnknown : Bool} {log : Array LogRecord}
    (hspares : db.SparesPadding) (hpad : z.isSentinel = true)
    (htaker : ∀ e ∈ (pageLedger db matching (p ++ q))[p.length]?, e.2.taker? = none) :
    let r := parsePageWithin room db matching (.empty logsUnknown) log (p ++ q)
    let r' := parsePageWithin room db matching (.empty logsUnknown) log (p ++ z :: q)
    ((∃ position, r'.outcome = .error (.nestingTooDeep position)) ↔
        ∃ position, r.outcome = .error (.nestingTooDeep position)) ∧
      ((∀ position, r.outcome ≠ .error (.nestingTooDeep position)) →
        r'.outcome = r.outcome.mapError (·.movedFrom p.length) ∧
          r'.diagnostics.entries.toList =
            r.diagnostics.entries.toList.map (·.movedFrom p.length) ∧
          r'.diagnostics.unknownCodes = r.diagnostics.unknownCodes) := by
  intro r r'
  obtain ⟨hend, hpeak⟩ := pageEnd_insert hspares hpad (frees_of_pageLedger htaker)
  constructor
  · rw [nestingTooDeep_iff, nestingTooDeep_iff, hpeak]
  · intro hfits
    have hle : pagePeak db matching (p ++ q) ≤ room := peak_le_of_outcome rfl hfits
    have hle' : pagePeak db matching (p ++ z :: q) ≤ room := by omega
    have hissues : pageIssues db matching (p ++ z :: q) =
        (pageIssues db matching (p ++ q)).map (·.movedFrom p.length) := by
      have hentries := congrArg (·.journal.diagnostics.entries.toList) hend
      simp only [journal_release, Sweep.movedFrom, Journal.entries_addAll, entries_pageEnd]
        at hentries
      exact hentries
    refine ⟨?_, ?_, ?_⟩
    · have houtcome := congrArg outcome hend
      rw [outcome_release, outcome_release, outcome_movedFrom] at houtcome
      rw [show r'.outcome = _ from outcome_of_peak_le hle',
        show r.outcome = _ from outcome_of_peak_le hle]
      exact houtcome
    · rw [show r'.diagnostics.entries.toList = _ from entries_of_peak_le hle',
        show r.diagnostics.entries.toList = _ from entries_of_peak_le hle, hissues]
      rfl
    · rw [show r'.diagnostics = _ from diagnostics_of_peak_le hle',
        show r.diagnostics = _ from diagnostics_of_peak_le hle, hissues]
      exact Journal.unknownCodes_addAll_movedFrom _ rfl _

/-- Padding is put into a page that ends within a scope, before a command that no node takes in.
What comes before it stays where it is and the second issue moves on by one. -/
theorem insert_padding_sample :
    let p := unclosedSample.take 3
    let q := unclosedSample.drop 3
    (Database.sample.SparesPadding ∧ Command.sentinel.isSentinel = true ∧
        ∀ e ∈ (pageLedger .sample .code (p ++ q))[p.length]?, e.2.taker? = none) ∧
      (∀ position, (parsePageWithin 1 .sample .code (.empty true) #[] (p ++ q)).outcome ≠
        .error (.nestingTooDeep position)) ∧
      (parsePageWithin 1 .sample .code (.empty true) #[] (p ++ .sentinel :: q)).outcome =
        .error (.unterminated 1 0 (.int 3)) ∧
      (parsePageWithin 1 .sample .code (.empty true) #[]
        (p ++ .sentinel :: q)).diagnostics.entries.toList.map (·.position) = [2, 4] := by
  intro p q
  have hspares : Database.sample.SparesPadding := by
    intro code kind hkind
    rw [Database.kind?_sample] at hkind
    split at hkind
    · cases hkind
      rfl
    · split at hkind
      · cases hkind
        rfl
      · split at hkind <;> cases hkind
        rfl
  have htaker : ∀ e ∈ (pageLedger .sample .code (p ++ q))[p.length]?, e.2.taker? = none := by
    rintro _ ⟨⟩
    rfl
  have houtcome : (parsePageWithin 1 .sample .code (.empty true) #[] (p ++ q)).outcome =
      .error (.unterminated 1 0 (.int 3)) := rfl
  have hfits : ∀ position,
      (parsePageWithin 1 .sample .code (.empty true) #[] (p ++ q)).outcome ≠
        .error (.nestingTooDeep position) := by
    intro position
    rw [houtcome]
    exact fun heq => by cases heq
  obtain ⟨hsame, hentries, -⟩ :=
    (parsePageWithin_insert_padding (z := .sentinel) hspares rfl htaker).2 hfits
  refine ⟨⟨hspares, rfl, htaker⟩, hfits, ?_, ?_⟩
  · rw [hsame, houtcome]
    rfl
  · rw [hentries]
    rfl

end PageOutline
