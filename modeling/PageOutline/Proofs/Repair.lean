import PageOutline.Proofs.Sweep.Page

/-!
# Repairing pages

A page that ends within a scope is reported with the innermost scope that is still open. Unless a
text command or a route goes on with the same code, a command with the code of the missing
terminator closes that scope and does nothing else. What is reported then is the scope around it, so
that a page is repaired by as many commands as it has open scopes.
-/

namespace PageOutline

/-- Whether a command opens a scope. -/
def Role.opens : Role → Bool
  | opener _ => true
  | _ => false

/-- Whether a command closes a scope. -/
def Role.closes : Role → Bool
  | terminator _ => true
  | _ => false

/-- No code that goes on with a text command or a route is that of the terminator of a scope. -/
def Database.KeepsApart (db : Database) : Prop :=
  ∀ (code code' : Code) (continuation : CodeSlot) (kind : ScopeKind),
    (db.kind? code = some (.text continuation) ∨ db.kind? code = some (.route continuation)) →
      db.kind? code' = some (.scope kind) →
      ∀ t, kind.terminator.code.holds t = true → continuation.holds t = false

/-- A page that is mended at most so many times: whenever a terminator is reported as missing, a
command for it is put to the end. -/
def mend (parse : List Command → PageResult) (closing : CodeSlot → Command) :
    Nat → List Command → List Command
  | 0, page => page
  | n + 1, page =>
    match (parse page).outcome with
    | .error (.unterminated _ _ terminator) => mend parse closing n (page ++ [closing terminator])
    | _ => page

namespace Sweep

variable {db : Database} {matching : Matching} {s t : Sweep} {c : Command} {role : Role}
  {ledger : Ledger} {scope : Scope} {outer : List Scope}

/-- A command opens a scope, closes one or leaves the open scopes in number, as its role says. -/
theorem Step.length_scopes (h : Step db matching s c role t) :
    t.scopes.length + (if role.closes then 1 else 0) =
      s.scopes.length + if role.opens then 1 else 0 := by
  cases h with
  | terminator hfree hscopes hterm =>
    rw [hscopes]
    rfl
  | delimiter hfree hscopes hterm hbranch =>
    rw [hscopes]
    rfl
  | _ => rfl

/-- The scopes that are open after a run are those that it opens and does not close. -/
theorem length_scopes_run (db : Database) (matching : Matching) (s : Sweep) (cs : List Command) :
    (s.run db matching cs).scopes.length + (s.ledger db matching cs).countP (·.2.closes) =
      s.scopes.length + (s.ledger db matching cs).countP (·.2.opens) := by
  induction cs generalizing s with
  | nil => rfl
  | cons c cs ih =>
    have hstep := (step_spec db matching s c).length_scopes
    have hrest := ih (s.step db matching c)
    rw [run_cons, Sweep.ledger, List.countP_cons, List.countP_cons]
    dsimp only
    omega

/-- At most the scopes are open that were open before and those that a command has opened. -/
theorem length_scopes_run_le (db : Database) (matching : Matching) (s : Sweep) (cs : List Command) :
    (s.run db matching cs).scopes.length ≤
      s.scopes.length + (s.ledger db matching cs).countP (·.2.opens) := by
  have hcount := length_scopes_run db matching s cs
  omega

/-- The scopes that are open at the end were open at once. -/
theorem length_scopes_run_le_peak (db : Database) (matching : Matching) (s : Sweep)
    (cs : List Command) :
    (s.run db matching cs).scopes.length ≤ s.peak db matching cs := by
  have h := peak_append db matching s cs []
  rw [List.append_nil, peak] at h
  omega

/-- A terminator is free where continuation codes are kept apart from it. -/
theorem Books.frees_terminator (h : Books db matching s ledger) (hapart : db.KeepsApart)
    (hscope : scope ∈ s.scopes) (hterm : scope.kind.terminator.code.holds c.code = true) :
    s.Frees c := by
  obtain ⟨opener, -, hkind⟩ := (h.scopes scope hscope).mem
  intro a ha
  obtain ⟨d, -, hkind'⟩ := (h.absorber a ha).mem
  cases a with
  | text node continuation =>
    exact hapart d.code opener.code continuation scope.kind (Or.inl hkind') hkind c.code hterm
  | route node continuation =>
    exact hapart d.code opener.code continuation scope.kind (Or.inr hkind') hkind c.code hterm

variable {page : List Command}

/-- One more command that closes the innermost scope. -/
theorem pageEnd_closing (hapart : db.KeepsApart)
    (hscopes : (pageEnd db matching page).scopes = scope :: outer)
    (hterm : scope.kind.terminator.code.holds c.code = true) :
    (pageEnd db matching (page ++ [c])).scopes = outer ∧
      pageIssues db matching (page ++ [c]) = pageIssues db matching page ∧
      pagePeak db matching (page ++ [c]) = pagePeak db matching page := by
  let s := pageEnd db matching page
  have hmem : scope ∈ s.scopes := hscopes ▸ List.mem_cons_self
  have hfree : s.Frees c := (books_pageEnd db matching page).frees_terminator hapart hmem hterm
  have hstep : s.step db matching c = s.next s.arena outer none [] := by
    have hstep : Step db matching s c _ _ := .terminator hfree hscopes hterm
    exact hstep.eq.2.symm
  have hend : pageEnd db matching (page ++ [c]) = s.next s.arena outer none [] := by
    rw [pageEnd, run_append]
    exact hstep
  refine ⟨by rw [hend]; rfl, ?_, ?_⟩
  · rw [← entries_pageEnd, ← entries_pageEnd, hend]
    rfl
  · have hopen : s.scopes.length ≤ pagePeak db matching page :=
      length_scopes_run_le_peak db matching blank page
    have hclosed : (s.step db matching c).scopes = outer := by
      rw [hstep]
      rfl
    have hless : outer.length ≤ s.scopes.length := by
      rw [hscopes]
      exact Nat.le_succ _
    have hlast : s.peak db matching [c] = s.scopes.length := by
      rw [peak, peak, hclosed]
      exact Nat.max_eq_left hless
    have hpeak : pagePeak db matching (page ++ [c]) =
        max (pagePeak db matching page) (s.peak db matching [c]) :=
      peak_append db matching blank page [c]
    rw [hpeak, hlast]
    exact Nat.max_eq_left hopen

end Sweep

open Sweep

section Mend

variable {db : Database} {matching : Matching} {room : Nat} {logsUnknown : Bool}
  {log : Array LogRecord} {page : List Command}

/-- A page that is reported as ending within a scope: the innermost scope that is open at its
end. -/
theorem exists_scope_of_unterminated {opener : Code} {position : Int} {terminator : CodeSlot}
    (h : (parsePageWithin room db matching (.empty logsUnknown) log page).outcome =
      .error (.unterminated opener position terminator)) :
    pagePeak db matching page ≤ room ∧ ∃ (scope : Scope) (outer : List Scope),
      (pageEnd db matching page).scopes = scope :: outer ∧ scope.opener = opener ∧
        scope.position = position ∧ scope.kind.terminator.code = terminator := by
  have hpeak : pagePeak db matching page ≤ room := peak_le_of_unterminated h
  rw [outcome_of_peak_le hpeak] at h
  obtain ⟨scope, outer, hscopes, herror⟩ := outcome_eq_error_iff.1 h
  cases herror
  exact ⟨hpeak, scope, outer, hscopes, rfl, rfl, rfl⟩

/-- The scope that is reported was opened by a command of the page and is not closed. -/
theorem exists_opener_of_unterminated {opener : Code} {position : Int} {terminator : CodeSlot}
    (h : (parsePageWithin room db matching (.empty logsUnknown) log page).outcome =
      .error (.unterminated opener position terminator)) :
    ∃ (i : Nat) (c : Command) (node : Nat) (kind : ScopeKind),
      position = i ∧ page[i]? = some c ∧ c.code = opener ∧ db.kind? c.code = some (.scope kind) ∧
        kind.terminator.code = terminator ∧
        (pageLedger db matching page)[i]? = some (c, .opener node) ∧
        ∀ e ∈ pageLedger db matching page, e.2 ≠ .terminator node := by
  obtain ⟨-, scope, outer, hscopes, rfl, rfl, rfl⟩ := exists_scope_of_unterminated h
  obtain ⟨before, c, inner, hledger, hposition, hopener, hkind, hnone⟩ :=
    (books_pageEnd db matching page).scopes scope (hscopes ▸ List.mem_cons_self)
  have hentry : (pageLedger db matching page)[before.length]? = some (c, .opener scope.node) := by
    rw [hledger]
    simp
  have hcommand : page[before.length]? = some c := by
    have hmap := congrArg (·[before.length]?) (map_fst_pageLedger db matching page)
    rw [List.getElem?_map, hentry] at hmap
    exact hmap.symm
  exact ⟨before.length, c, scope.node, scope.kind, hposition, hcommand, hopener.symm, hkind, rfl,
    hentry, hnone⟩

/-- One command for the missing terminator leaves the scope around to be reported, if there is
one. -/
theorem parse_closing_of_unterminated (hapart : db.KeepsApart) {opener : Code} {position : Int}
    {terminator : CodeSlot}
    (h : (parsePageWithin room db matching (.empty logsUnknown) log page).outcome =
      .error (.unterminated opener position terminator)) {t : Command}
    (hterm : terminator.holds t.code = true) :
    let parse := parsePageWithin room db matching (.empty logsUnknown) log
    ((∃ tree, (parse (page ++ [t])).outcome = .ok tree) ∨
        ∃ opener' position' terminator', position' < position ∧
          (parse (page ++ [t])).outcome = .error (.unterminated opener' position' terminator')) ∧
      (parse (page ++ [t])).diagnostics.entries.toList =
        (parse page).diagnostics.entries.toList := by
  intro parse
  obtain ⟨hpeak, scope, outer, hscopes, rfl, rfl, rfl⟩ := exists_scope_of_unterminated h
  obtain ⟨hscopes', hissues, hpeak'⟩ := pageEnd_closing hapart hscopes hterm
  have hle : pagePeak db matching (page ++ [t]) ≤ room := by omega
  have hparse : (parse (page ++ [t])).outcome = _ := outcome_of_peak_le hle
  constructor
  · cases outer with
    | nil => exact Or.inl ⟨_, hparse.trans (outcome_eq_ok_iff.2 ⟨hscopes', rfl⟩)⟩
    | cons around rest =>
      have hstacked := (books_pageEnd db matching page).stacked
      rw [hscopes, Ledger.Stacked, List.pairwise_cons] at hstacked
      have hless : around.position < scope.position :=
        (hstacked.1 around List.mem_cons_self).1
      have herror := outcome_eq_error_iff.2 ⟨around, rest, hscopes', rfl⟩
      exact Or.inr ⟨_, _, _, hless, hparse.trans herror⟩
  · simp only [parse]
    rw [entries_of_peak_le hle, entries_of_peak_le hpeak, hissues]

/-- A page is mended by the commands for the scopes that are open at its end, and its issues stay.
The induction is on these scopes. -/
theorem parse_mend (hapart : db.KeepsApart) (logsUnknown : Bool) (log : Array LogRecord)
    (closing : CodeSlot → Command) (hpeak : pagePeak db matching page ≤ room)
    (hclosing : ∀ scope ∈ (pageEnd db matching page).scopes,
      scope.kind.terminator.code.holds (closing scope.kind.terminator.code).code = true) :
    let parse := parsePageWithin room db matching (.empty logsUnknown) log
    (∃ tree, (parse (mend parse closing (pageEnd db matching page).scopes.length page)).outcome =
        .ok tree) ∧
      ∀ k, k ≤ (pageEnd db matching page).scopes.length →
        (parse (mend parse closing k page)).diagnostics.entries.toList =
          (parse page).diagnostics.entries.toList := by
  intro parse
  generalize hscopes : (pageEnd db matching page).scopes = scopes at hclosing ⊢
  induction scopes generalizing page with
  | nil =>
    have hparse : (parse page).outcome = _ := outcome_of_peak_le hpeak
    refine ⟨⟨_, hparse.trans (outcome_eq_ok_iff.2 ⟨hscopes, rfl⟩)⟩, fun k hk => ?_⟩
    rw [Nat.le_zero.1 hk, mend]
  | cons scope outer ih =>
    have hterm := hclosing scope List.mem_cons_self
    obtain ⟨hscopes', hissues, hpeak'⟩ := pageEnd_closing hapart hscopes hterm
    obtain ⟨hok, hentries⟩ := ih (by omega) hscopes' fun inner hinner =>
      hclosing inner (List.mem_cons_of_mem _ hinner)
    have hparse : (parse page).outcome = _ := outcome_of_peak_le hpeak
    have herror := hparse.trans (outcome_eq_error_iff.2 ⟨scope, outer, hscopes, rfl⟩)
    have hmend : ∀ k, mend parse closing (k + 1) page =
        mend parse closing k (page ++ [closing scope.kind.terminator.code]) := by
      intro k
      rw [mend, herror]
    refine ⟨?_, fun k hk => ?_⟩
    · rw [List.length_cons, hmend]
      exact hok
    · cases k with
      | zero => rfl
      | succ k =>
        rw [hmend, hentries k (Nat.le_of_succ_le_succ hk)]
        simp only [parse]
        rw [entries_of_peak_le (by omega), entries_of_peak_le hpeak, hissues]

/-- A page that ends within a scope is reported with a command of it that opens a scope which is
never closed. A command for the missing terminator closes that scope, so that the page parses or is
reported with an earlier one, and as many such commands as there are scopes open at the end mend the
page. None of them is an issue. -/
theorem repair_of_parsePageWithin {opener : Code} {position : Int} {terminator : CodeSlot}
    (h : (parsePageWithin room db matching (.empty logsUnknown) log page).outcome =
      .error (.unterminated opener position terminator)) :
    let parse := parsePageWithin room db matching (.empty logsUnknown) log
    let ledger := pageLedger db matching page
    (∃ (i : Nat) (c : Command) (node : Nat) (kind : ScopeKind),
        position = i ∧ page[i]? = some c ∧ c.code = opener ∧
          db.kind? c.code = some (.scope kind) ∧ kind.terminator.code = terminator ∧
          ledger[i]? = some (c, .opener node) ∧ ∀ e ∈ ledger, e.2 ≠ .terminator node) ∧
      (db.KeepsApart →
        (∀ t : Command, terminator.holds t.code = true →
          ((∃ tree, (parse (page ++ [t])).outcome = .ok tree) ∨
            ∃ opener' position' terminator', position' < position ∧
              (parse (page ++ [t])).outcome =
                .error (.unterminated opener' position' terminator')) ∧
          (parse (page ++ [t])).diagnostics.entries.toList =
            (parse page).diagnostics.entries.toList) ∧
        ∀ closing : CodeSlot → Command,
          (∀ c node kind, (c, Role.opener node) ∈ ledger → db.kind? c.code = some (.scope kind) →
            kind.terminator.code.holds (closing kind.terminator.code).code = true) →
          ∃ n, n ≤ ledger.countP (·.2.opens) ∧
            (∃ tree, (parse (mend parse closing n page)).outcome = .ok tree) ∧
            ∀ k, k ≤ n → (parse (mend parse closing k page)).diagnostics.entries.toList =
              (parse page).diagnostics.entries.toList) := by
  intro parse ledger
  refine ⟨exists_opener_of_unterminated h, fun hapart => ⟨fun t hterm => ?_, ?_⟩⟩
  · exact parse_closing_of_unterminated hapart h hterm
  · intro closing hclosing
    obtain ⟨hpeak, -⟩ := exists_scope_of_unterminated h
    have hopen : ∀ scope ∈ (pageEnd db matching page).scopes,
        scope.kind.terminator.code.holds (closing scope.kind.terminator.code).code = true := by
      intro scope hscope
      obtain ⟨c, hmem, hkind⟩ := ((books_pageEnd db matching page).scopes scope hscope).mem
      exact hclosing c scope.node scope.kind hmem hkind
    have hcount := length_scopes_run_le db matching blank page
    rw [show blank.scopes.length = 0 from rfl, Nat.zero_add] at hcount
    exact ⟨_, hcount, parse_mend hapart logsUnknown log closing hpeak hopen⟩

end Mend

/-- A page that ends within a scope, which a terminator at its end closes. -/
theorem repair_sample :
    (parsePageWithin 1 .sample .code (.empty true) #[] unclosedSample).outcome =
        .error (.unterminated 1 0 (.int 3)) ∧
      Database.sample.KeepsApart ∧
      let parse := parsePageWithin 1 .sample .code (.empty true) #[]
      ∃ n, n ≤ (pageLedger .sample .code unclosedSample).countP (·.2.opens) ∧
        ∃ tree, (parse (mend parse (fun _ => ⟨3, [], .int 0, by decide⟩) n
          unclosedSample)).outcome = .ok tree := by
  have h : (parsePageWithin 1 .sample .code (.empty true) #[] unclosedSample).outcome =
      .error (.unterminated 1 0 (.int 3)) := rfl
  have hapart : Database.sample.KeepsApart := by
    intro code code' continuation kind hcontinuation hscope t hterm
    rw [Database.terminator_sample hscope] at hterm
    have ht : (3 : Code) = t := by simpa using hterm
    subst ht
    rcases Database.continuation_sample hcontinuation with rfl | rfl
    · decide
    · decide
  obtain ⟨n, hn, hok, -⟩ := ((repair_of_parsePageWithin h).2 hapart).2
    (fun _ => ⟨3, [], .int 0, by decide⟩) fun c _ kind _ hkind => by
      rw [Database.terminator_sample hkind]
      decide
  exact ⟨h, hapart, n, hn, hok⟩

end PageOutline
