import PageOutline.Proofs.Sweep.Basic

/-!
# Reading on

`Leads` relates two sweeps over what is left of a page: reading on from either comes to the same. It
is the relation in which the parser's steps and a forest's items are described. While an absorber
takes commands, reading on has a closed form: the lines joined at once, the companions added at
once.
-/

namespace PageOutline

namespace Sweep

variable (db : Database) (matching : Matching)

/-- Reading `cs` from `s` comes to the same as reading `ds` from `t`, and what is read in between
keeps at most `bound` scopes open. -/
def Leads (bound : Nat) (s : Sweep) (cs : List Command) (t : Sweep) (ds : List Command) : Prop :=
  (s.run db matching cs).release = (t.run db matching ds).release ∧
    (s.peak db matching cs ≤ bound ↔ t.peak db matching ds ≤ bound)

variable {db matching} {bound : Nat} {s t u : Sweep} {cs ds es : List Command}

/-- Reading nothing leads to the same point. -/
theorem Leads.refl (s : Sweep) (cs : List Command) : Leads db matching bound s cs s cs :=
  ⟨rfl, Iff.rfl⟩

/-- What is read in two parts may be read in one. -/
theorem Leads.trans (h : Leads db matching bound s cs t ds)
    (h' : Leads db matching bound t ds u es) :
    Leads db matching bound s cs u es :=
  ⟨h.1.trans h'.1, h.2.trans h'.2⟩

/-- Reading one command leads on if no more scopes are open before it than the bound allows. -/
theorem Leads.step (db : Database) (matching : Matching) (h : s.scopes.length ≤ bound) (c : Command)
    (cs : List Command) :
    Leads db matching bound s (c :: cs) (s.step db matching c) cs :=
  ⟨rfl, by simp only [peak]; omega⟩

/-- A pending absorber that does not take the next command plays no further part. -/
theorem Leads.release (h : ∀ c ∈ cs.head?, s.absorber?.all fun a => !a.takes c) :
    Leads db matching bound s cs s.release cs := by
  cases cs with
  | nil => exact ⟨rfl, Iff.rfl⟩
  | cons c cs =>
    have hstep := step_release db matching (h c (by simp))
    constructor
    · rw [run_cons, run_cons, hstep]
    · simp only [peak, hstep]
      rfl

/-- A command that the absorber takes is absorbed. -/
theorem step_of_takes (db : Database) (matching : Matching) {a : Absorber} {c : Command}
    (ha : s.absorber? = some a) (htakes : a.takes c = true) :
    s.step db matching c = s.advance.absorb a c := by
  simp only [Sweep.step, ha, htakes, if_true]

/-- What is pending goes on taking commands in. -/
@[simp] theorem absorber?_absorb (s : Sweep) (a : Absorber) (c : Command) :
    (s.absorb a c).absorber? = s.absorber? := by
  unfold absorb
  split
  · split <;> rfl
  · rfl

/-- The absorber stays while it takes commands. -/
theorem absorber?_run_of_takes {a : Absorber} (ha : s.absorber? = some a)
    (htakes : ∀ c ∈ cs, a.takes c = true) : (s.run db matching cs).absorber? = some a := by
  induction cs generalizing s with
  | nil => exact ha
  | cons c cs ih =>
    rw [run_cons, step_of_takes db matching ha (htakes c (by simp))]
    apply ih
    · rw [absorber?_absorb]
      exact ha
    · exact fun d hd => htakes d (by simp [hd])

/-- While the absorber takes commands, no scope is opened or closed. -/
theorem Leads.absorbing {a : Absorber} (ha : s.absorber? = some a)
    (hbound : s.scopes.length ≤ bound) (htakes : ∀ c ∈ cs, a.takes c = true)
    (ds : List Command) :
    Leads db matching bound s (cs ++ ds) (s.run db matching cs) ds := by
  induction cs generalizing s with
  | nil => exact Leads.refl ..
  | cons c cs ih =>
    refine (Leads.step db matching hbound c (cs ++ ds)).trans ?_
    have hstep := step_of_takes db matching ha (htakes c (by simp))
    rw [run_cons, hstep]
    apply ih
    · rw [absorber?_absorb]
      exact ha
    · rw [scopes_absorb]
      exact hbound
    · exact fun d hd => htakes d (by simp [hd])

/-- Reading a whole run for the absorber and letting it go after that. -/
theorem Leads.of_run {a : Absorber} {taken rest : List Command} (hbound : s.scopes.length ≤ bound)
    (ha : s.absorber? = some a) (hcs : taken ++ rest = cs) (htakes : ∀ c ∈ taken, a.takes c = true)
    (hnot : ∀ c ∈ rest.head?, a.takes c = false)
    (ht : (s.run db matching taken).release = t) : Leads db matching bound s cs t rest := by
  subst hcs
  refine (Leads.absorbing ha hbound htakes rest).trans ?_
  rw [← ht]
  apply Leads.release
  intro c hc
  have habsorber : (s.run db matching taken).absorber? = some a :=
    absorber?_run_of_takes ha htakes
  rw [habsorber]
  simpa using hnot c hc

/-- What a text command makes of the lines after it. -/
theorem run_text {id : Nat} {continuation : CodeSlot} (lines : List Command)
    (ha : s.absorber? = some (.text id continuation)) (hid : id < s.arena.size)
    (htakes : ∀ c ∈ lines, continuation.holds c.code = true) :
    s.run db matching lines =
      { s with
        arena := s.arena.withCommand id ((s.arena.commandAt id).joined lines)
        position := s.position + lines.length
        journal := s.journal.addAll
          (malformedLines (s.arena.commandAt id) (s.position + 1) lines) } := by
  induction lines generalizing s with
  | nil => simp [Arena.withCommand_commandAt, malformedLines]
  | cons c lines ih =>
    have hrest : ∀ d ∈ lines, continuation.holds d.code = true :=
      fun d hd => htakes d (by simp [hd])
    have hstep := step_of_takes db matching ha (htakes c (by simp))
    rw [run_cons, hstep]
    have hposition : s.position + 1 + (lines.length : Int) =
        s.position + ((c :: lines).length : Int) := by
      simp only [List.length_cons]
      omega
    cases hjoin : (s.arena.commandAt id).joinLine? c with
    | some joined =>
      simp only [absorb, advance, hjoin]
      rw [ih (by exact ha) (by simpa using hid) hrest]
      simp only [Arena.commandAt_withCommand hid, Arena.withCommand_withCommand, hposition,
        Command.joined_cons_of_some hjoin, malformedLines_cons_of_some hjoin]
    | none =>
      simp only [absorb, advance, hjoin]
      rw [ih (by exact ha) (by exact hid) hrest]
      simp only [hposition, Command.joined_cons_of_none hjoin, malformedLines_cons_of_none hjoin,
        Journal.addAll_cons]

/-- What a route makes of the entries after it. -/
theorem run_route {id : Nat} {continuation : CodeSlot} (entries : List Command)
    (ha : s.absorber? = some (.route id continuation))
    (htakes : ∀ c ∈ entries, continuation.holds c.code = true) :
    s.run db matching entries =
      { s with
        arena := s.arena.withCompanions id entries
        position := s.position + entries.length } := by
  induction entries generalizing s with
  | nil => simp
  | cons c entries ih =>
    have hrest : ∀ d ∈ entries, continuation.holds d.code = true :=
      fun d hd => htakes d (by simp [hd])
    have hstep := step_of_takes db matching ha (htakes c (by simp))
    have hposition : s.position + 1 + (entries.length : Int) =
        s.position + ((c :: entries).length : Int) := by
      simp only [List.length_cons]
      omega
    rw [run_cons, hstep, absorb, advance, ih (by exact ha) hrest]
    simp only [hposition, Arena.withCompanions_withCompanions, List.singleton_append]

/-- How reading `cs` from `s` fails: with too many scopes open at once, or at the end of the page
with a scope still open. -/
inductive Fails (db : Database) (matching : Matching) (bound : Nat) (s : Sweep)
    (cs : List Command) (e : PageError) (arena : Arena) (journal : Journal) : Prop where
  | tooDeep (position : Int) (he : e = .nestingTooDeep position)
      (hpeak : bound < s.peak db matching cs)
  | unterminated (hpeak : s.peak db matching cs ≤ bound)
      (he : (s.run db matching cs).failure? = some e)
      (harena : (s.run db matching cs).arena = arena)
      (hjournal : (s.run db matching cs).journal = journal)

/-- A sweep with too many scopes open has failed already. -/
theorem Fails.of_lt_length (h : bound < s.scopes.length) (position : Int) (arena : Arena)
    (journal : Journal) :
    Fails db matching bound s cs (.nestingTooDeep position) arena journal :=
  .tooDeep position rfl (Nat.lt_of_lt_of_le h (length_scopes_le_peak s cs))

/-- A failure that reading leads to is one of the reading as a whole. -/
theorem Fails.of_leads {e : PageError} {arena : Arena} {journal : Journal}
    (h : Leads db matching bound s cs t ds)
    (hfails : Fails db matching bound t ds e arena journal) :
    Fails db matching bound s cs e arena journal := by
  obtain ⟨hrun, hpeak⟩ := h
  cases hfails with
  | tooDeep position he hlt => exact .tooDeep position he (by omega)
  | unterminated hle he harena hjournal =>
    refine .unterminated (hpeak.mpr hle) ?_ ?_ ?_
    · rw [← failure?_release, hrun, failure?_release, he]
    · rw [← arena_release, hrun, arena_release, harena]
    · rw [← journal_release, hrun, journal_release, hjournal]

end Sweep

end PageOutline
