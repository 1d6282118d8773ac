import PageOutline.Proofs.Sweep.Books
import PageOutline.Proofs.Sweep.Refinement

/-!
# Pages as sweeps

What the parser makes of a page, said with the sweep over it: where the sweep stops, the roles of
its commands and their issues. None of these depends on the issues and the log that there were
before, and the parser adds to them what the sweep finds.
-/

namespace PageOutline

namespace Sweep

variable (db : Database) (matching : Matching) (page : List Command)

/-- The sweep before the first command of any page. -/
def blank : Sweep := start (.empty true) #[]

/-- The sweep after the last command of a page. -/
def pageEnd : Sweep := blank.run db matching page

/-- The roles of the commands of a page. -/
def pageLedger : Ledger := blank.ledger db matching page

/-- The issues of a page. -/
def pageIssues : List Diagnostic := blank.issues db matching page

/-- The largest number of scopes of a page that are open at once. -/
def pagePeak : Nat := blank.peak db matching page

/-- What a page comes to that ends here: a tree, or the error of the scope that is still open. -/
def outcome (s : Sweep) : Except PageError Tree :=
  match s.failure? with
  | some e => .error e
  | none => .ok ⟨s.arena, s.root⟩

/-- The outcome of a page that ends here is part of what it gives. -/
theorem outcome_result (s : Sweep) : s.result.outcome = s.outcome := by
  unfold result outcome
  cases s.failure? <;> rfl

/-- The collector of a page that ends here is the one that the sweep has. -/
theorem diagnostics_result (s : Sweep) : s.result.diagnostics = s.journal.diagnostics := by
  unfold result
  cases s.failure? <;> rfl

/-- The outcome does not depend on what is pending. -/
@[simp] theorem outcome_release (s : Sweep) : s.release.outcome = s.outcome := rfl

/-- A page comes to a tree exactly if no scope is open at its end, and the tree has the arena. -/
theorem outcome_eq_ok_iff {s : Sweep} {tree : Tree} :
    s.outcome = .ok tree ↔ s.scopes = [] ∧ tree = ⟨s.arena, s.root⟩ := by
  unfold outcome failure?
  cases s.scopes with
  | nil =>
    constructor
    · intro h
      exact ⟨rfl, (Except.ok.inj h).symm⟩
    · rintro ⟨-, rfl⟩
      rfl
  | cons scope outer =>
    constructor
    · intro h
      cases h
    · rintro ⟨hscopes, -⟩
      cases hscopes

/-- A page comes to an error exactly if a scope is open at its end, and the error is that of the
innermost one. -/
theorem outcome_eq_error_iff {s : Sweep} {e : PageError} :
    s.outcome = .error e ↔ ∃ (scope : Scope) (outer : List Scope), s.scopes = scope :: outer ∧
      e = .unterminated scope.opener scope.position scope.kind.terminator.code := by
  unfold outcome failure?
  cases s.scopes with
  | nil =>
    constructor
    · intro h
      cases h
    · rintro ⟨scope, outer, hscopes, -⟩
      cases hscopes
  | cons scope outer =>
    constructor
    · intro h
      exact ⟨scope, outer, rfl, (Except.error.inj h).symm⟩
    · rintro ⟨scope, outer, hscopes, rfl⟩
      cases hscopes
      rfl

/-- A page that ends here is no page that nests too deep. -/
theorem outcome_ne_nestingTooDeep (s : Sweep) (position : Int) :
    s.outcome ≠ .error (.nestingTooDeep position) := by
  intro h
  obtain ⟨scope, outer, -, herror⟩ := outcome_eq_error_iff.1 h
  cases herror

/-- The ledger of a page has its commands in order. -/
theorem map_fst_pageLedger : (pageLedger db matching page).map Prod.fst = page :=
  map_fst_ledger ..

/-- The ledger of a page has one entry for each command. -/
theorem length_pageLedger : (pageLedger db matching page).length = page.length := by
  have hlength := congrArg List.length (map_fst_pageLedger db matching page)
  rwa [List.length_map] at hlength

/-- The ledger of a page describes the arena that the sweep comes to. -/
theorem books_pageEnd :
    Books db matching (pageEnd db matching page) (pageLedger db matching page) :=
  (books_start db matching (.empty true) #[]).run page

/-- With whatever issues a sweep starts, it ends as one without any, and the issues of the page are
added. -/
theorem run_start (diagnostics : Diagnostics) (log : Array LogRecord) :
    (start diagnostics log).run db matching page =
      (pageEnd db matching page).noting
        (Journal.addAll ⟨diagnostics, log⟩ (pageIssues db matching page)) :=
  run_noting blank ⟨diagnostics, log⟩ page

/-- With whatever issues a sweep starts, it has the same peak. -/
theorem peak_start (diagnostics : Diagnostics) (log : Array LogRecord) :
    (start diagnostics log).peak db matching page = pagePeak db matching page :=
  peak_noting blank ⟨diagnostics, log⟩ page

/-- A sweep that starts without issues ends with those of the page. -/
theorem entries_pageEnd :
    (pageEnd db matching page).journal.diagnostics.entries.toList =
      pageIssues db matching page := by
  rw [pageEnd, journal_run, Journal.entries_addAll]
  rfl

end Sweep

open Sweep

variable {db : Database} {matching : Matching} {room : Nat} {diagnostics : Diagnostics}
  {log : Array LogRecord} {page : List Command}

/-- A page that nests no deeper than it may is parsed as a sweep reads it. -/
theorem parsePageWithin_of_peak_le (h : pagePeak db matching page ≤ room) :
    parsePageWithin room db matching diagnostics log page =
      ((pageEnd db matching page).noting
        (Journal.addAll ⟨diagnostics, log⟩ (pageIssues db matching page))).result := by
  have hcases := parsePageWithin_cases db matching room diagnostics log page
  simp only [peak_start, run_start] at hcases
  rcases hcases with ⟨-, hresult⟩ | ⟨hlt, -⟩
  · exact hresult
  · omega

/-- Exactly the pages with too many scopes open at once nest too deep. -/
theorem nestingTooDeep_iff :
    (∃ position, (parsePageWithin room db matching diagnostics log page).outcome =
      .error (.nestingTooDeep position)) ↔ room < pagePeak db matching page := by
  have hcases := parsePageWithin_cases db matching room diagnostics log page
  simp only [peak_start, run_start] at hcases
  rcases hcases with ⟨hle, hresult⟩ | ⟨hlt, hdeep⟩
  · constructor
    · rintro ⟨position, hdeep⟩
      rw [hresult, outcome_result] at hdeep
      exact absurd hdeep (outcome_ne_nestingTooDeep _ position)
    · intro hlt
      omega
  · exact ⟨fun _ => hlt, fun _ => hdeep⟩

/-- What a page comes to that does not nest too deep. -/
theorem outcome_of_peak_le (h : pagePeak db matching page ≤ room) :
    (parsePageWithin room db matching diagnostics log page).outcome =
      (pageEnd db matching page).outcome := by
  rw [parsePageWithin_of_peak_le h, outcome_result]
  rfl

/-- A page with a tree or an open scope does not nest too deep. -/
theorem peak_le_of_outcome {outcome : Except PageError Tree}
    (h : (parsePageWithin room db matching diagnostics log page).outcome = outcome)
    (hne : ∀ position, outcome ≠ .error (.nestingTooDeep position)) :
    pagePeak db matching page ≤ room := by
  refine Nat.le_of_not_lt fun hlt => ?_
  obtain ⟨position, hdeep⟩ := nestingTooDeep_iff.2 hlt
  exact hne position (h.symm.trans hdeep)

/-- A page that gives a tree nests within the bound. -/
theorem peak_le_of_ok {tree : Tree}
    (h : (parsePageWithin room db matching diagnostics log page).outcome = .ok tree) :
    pagePeak db matching page ≤ room :=
  peak_le_of_outcome h fun position heq => by cases heq

/-- A page that ends within a scope nests within the bound. -/
theorem peak_le_of_unterminated {opener : Code} {position : Int} {terminator : CodeSlot}
    (h : (parsePageWithin room db matching diagnostics log page).outcome =
      .error (.unterminated opener position terminator)) :
    pagePeak db matching page ≤ room :=
  peak_le_of_outcome h fun position heq => by cases heq

/-- The issues of a page that does not nest too deep follow those collected before. -/
theorem diagnostics_of_peak_le (h : pagePeak db matching page ≤ room) :
    (parsePageWithin room db matching diagnostics log page).diagnostics =
      (Journal.addAll ⟨diagnostics, log⟩ (pageIssues db matching page)).diagnostics := by
  rw [parsePageWithin_of_peak_le h, diagnostics_result]
  rfl

/-- A page within the bound adds its issues to the collector. -/
theorem entries_of_peak_le (h : pagePeak db matching page ≤ room) :
    (parsePageWithin room db matching diagnostics log page).diagnostics.entries.toList =
      diagnostics.entries.toList ++ pageIssues db matching page := by
  rw [diagnostics_of_peak_le h, Journal.entries_addAll]

end PageOutline
