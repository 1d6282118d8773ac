import PageOutline.Proofs.Repair

/-!
# How deep pages nest

A scope is open from the command that opens it to its terminator, so the roles of a page say how
many scopes are open after each of its commands. The largest of these numbers alone decides whether
a page nests too deep: arms, scopes beside each other, lines, companions and the length of the page
do not count. A page that does not nest too deep comes to what it comes to without any bound.
-/

namespace PageOutline

namespace Ledger

/-- The number of scopes that are opened in a ledger and not closed. -/
def openScopes (ledger : Ledger) : Nat :=
  ledger.countP (·.2.opens) - ledger.countP (·.2.closes)

/-- The largest number of scopes that are open after none, one or more of the commands of a
ledger. -/
def deepest (ledger : Ledger) : Nat :=
  ((List.range (ledger.length + 1)).map fun n => openScopes (ledger.take n)).max?.getD 0

/-- The part of a ledger that opens and closes scopes. -/
def turns (ledger : Ledger) : Ledger := ledger.filter fun e => e.2.opens || e.2.closes

variable {ledger ledger' : Ledger}

/-- At no point are more scopes open than at the deepest one. -/
theorem openScopes_take_le (ledger : Ledger) {n : Nat} (hn : n ≤ ledger.length) :
    openScopes (ledger.take n) ≤ ledger.deepest := by
  apply List.le_max?_getD_of_mem
  exact List.mem_map.2 ⟨n, List.mem_range.2 (Nat.lt_succ_of_le hn), rfl⟩

/-- What bounds the number of open scopes everywhere bounds the depth. -/
theorem deepest_le {bound : Nat} (h : ∀ n, n ≤ ledger.length → openScopes (ledger.take n) ≤ bound) :
    ledger.deepest ≤ bound := by
  unfold deepest
  generalize hopen :
    (List.range (ledger.length + 1)).map (fun n => openScopes (ledger.take n)) = opens
  cases hmax : opens.max? with
  | none => exact Nat.zero_le _
  | some m =>
    have hmem : m ∈ opens := List.max?_mem hmax
    rw [← hopen] at hmem
    obtain ⟨n, hn, rfl⟩ := List.mem_map.1 hmem
    exact h n (Nat.le_of_lt_succ (List.mem_range.1 hn))

/-- Only what opens and closes scopes counts for how many are open. -/
theorem openScopes_turns (ledger : Ledger) : ledger.turns.openScopes = ledger.openScopes := by
  unfold openScopes turns
  rw [List.countP_filter, List.countP_filter]
  congr 2 <;> funext e <;> cases e.2.opens <;> cases e.2.closes <;> rfl

/-- The first turns of a ledger are the turns of some of its first commands. -/
theorem exists_turns_take (ledger : Ledger) (m : Nat) :
    ∃ n, n ≤ ledger.length ∧ turns (ledger.take n) = ledger.turns.take m := by
  induction ledger generalizing m with
  | nil => exact ⟨0, Nat.le_refl _, by rw [List.take_nil, turns, List.filter_nil, List.take_nil]⟩
  | cons e ledger ih =>
    cases hturn : e.2.opens || e.2.closes with
    | true =>
      cases m with
      | zero => exact ⟨0, Nat.zero_le _, rfl⟩
      | succ m =>
        obtain ⟨n, hn, htake⟩ := ih m
        refine ⟨n + 1, Nat.succ_le_succ hn, ?_⟩
        simp only [turns, List.take_succ_cons, List.filter_cons, hturn, if_true] at htake ⊢
        rw [htake]
    | false =>
      -- a command that is no turn comes along and adds nothing
      obtain ⟨n, hn, htake⟩ := ih m
      refine ⟨n + 1, Nat.succ_le_succ hn, ?_⟩
      simp only [turns, List.take_succ_cons, List.filter_cons, hturn] at htake ⊢
      exact htake

/-- Only what opens and closes scopes counts for the depth. -/
theorem deepest_turns (ledger : Ledger) : ledger.turns.deepest = ledger.deepest := by
  apply Nat.le_antisymm
  · apply deepest_le
    intro m _
    obtain ⟨n, hn, htake⟩ := exists_turns_take ledger m
    rw [← htake, openScopes_turns]
    exact openScopes_take_le ledger hn
  · apply deepest_le
    intro n _
    have hparts : turns (ledger.take n) ++ turns (ledger.drop n) = ledger.turns := by
      rw [turns, turns, ← List.filter_append, List.take_append_drop, turns]
    have htake : ledger.turns.take (turns (ledger.take n)).length = turns (ledger.take n) := by
      rw [← hparts, List.take_left]
    have hlength : (turns (ledger.take n)).length ≤ ledger.turns.length := by
      rw [← hparts, List.length_append]
      omega
    rw [← openScopes_turns, ← htake]
    exact openScopes_take_le _ hlength

/-- Where all scopes are closed the depth starts anew. -/
theorem deepest_append (hclosed : ledger.countP (·.2.opens) = ledger.countP (·.2.closes))
    (ledger' : Ledger) : deepest (ledger ++ ledger') = max ledger.deepest ledger'.deepest := by
  have hopen : ∀ n, openScopes (ledger ++ ledger'.take n) = openScopes (ledger'.take n) := by
    intro n
    unfold openScopes
    rw [List.countP_append, List.countP_append]
    omega
  apply Nat.le_antisymm
  · apply deepest_le
    intro n hn
    rw [List.length_append] at hn
    rcases Nat.le_total n ledger.length with hle | hle
    · have htake := openScopes_take_le ledger hle
      rw [List.take_append_of_le_length hle]
      omega
    · have hrest : n - ledger.length ≤ ledger'.length := by omega
      have htake := openScopes_take_le ledger' hrest
      rw [List.take_append, List.take_of_length_le hle, hopen]
      omega
  · apply Nat.max_le.2
    constructor
    · apply deepest_le
      intro n hn
      have htake : (ledger ++ ledger').take n = ledger.take n :=
        List.take_append_of_le_length hn
      rw [← htake]
      apply openScopes_take_le
      rw [List.length_append]
      omega
    · apply deepest_le
      intro n hn
      have htake : (ledger ++ ledger').take (ledger.length + n) = ledger ++ ledger'.take n :=
        List.take_length_add_append n
      rw [← hopen, ← htake]
      apply openScopes_take_le
      rw [List.length_append]
      omega

end Ledger

namespace Sweep

open Ledger

variable {db : Database} {matching : Matching} {s : Sweep} {c : Command}

/-- What the first commands of a page are used for does not depend on the others. -/
theorem take_ledger (db : Database) (matching : Matching) (s : Sweep) (cs : List Command)
    (n : Nat) :
    (s.ledger db matching cs).take n = s.ledger db matching (cs.take n) := by
  induction cs generalizing s n with
  | nil => rw [ledger, List.take_nil, List.take_nil, ledger]
  | cons c cs ih =>
    cases n with
    | zero => rfl
    | succ n => rw [List.take_succ_cons, ledger, ledger, List.take_succ_cons, ih]

/-- What is open after some of the commands was open at once. -/
theorem length_scopes_run_take_le (db : Database) (matching : Matching) (s : Sweep)
    (cs : List Command) (n : Nat) :
    (s.run db matching (cs.take n)).scopes.length ≤ s.peak db matching cs := by
  have hparts := peak_append db matching s (cs.take n) (cs.drop n)
  rw [List.take_append_drop] at hparts
  have htaken := length_scopes_run_le_peak db matching s (cs.take n)
  omega

/-- The most scopes are open after some of the commands. -/
theorem exists_length_scopes_eq_peak (db : Database) (matching : Matching) (s : Sweep)
    (cs : List Command) :
    ∃ n, n ≤ cs.length ∧ (s.run db matching (cs.take n)).scopes.length = s.peak db matching cs := by
  induction cs generalizing s with
  | nil => exact ⟨0, Nat.le_refl _, rfl⟩
  | cons c cs ih =>
    obtain ⟨n, hn, hpeak⟩ := ih (s.step db matching c)
    rw [peak]
    rcases Nat.le_total s.scopes.length ((s.step db matching c).peak db matching cs) with hle | hle
    · refine ⟨n + 1, Nat.succ_le_succ hn, ?_⟩
      rw [List.take_succ_cons, run_cons, hpeak, Nat.max_eq_right hle]
    · refine ⟨0, Nat.zero_le _, ?_⟩
      rw [List.take_zero, run_nil, Nat.max_eq_left hle]

variable (db matching)

/-- The ledger of a page begins with those of its beginnings. -/
theorem take_pageLedger (page : List Command) (n : Nat) :
    (pageLedger db matching page).take n = pageLedger db matching (page.take n) :=
  take_ledger db matching blank page n

/-- The roles of a page close no more scopes than they open, and leave open those on the stack at
its end. -/
theorem countP_opens_pageLedger (page : List Command) :
    (pageLedger db matching page).countP (·.2.opens) =
      (pageLedger db matching page).countP (·.2.closes) +
        (pageEnd db matching page).scopes.length := by
  have hrun : (pageEnd db matching page).scopes.length +
      (pageLedger db matching page).countP (·.2.closes) =
        0 + (pageLedger db matching page).countP (·.2.opens) :=
    length_scopes_run db matching blank page
  omega

/-- The scopes that the ledger of a page leaves open are those that the sweep has open at its
end. -/
theorem openScopes_pageLedger (page : List Command) :
    openScopes (pageLedger db matching page) = (pageEnd db matching page).scopes.length := by
  have hcount := countP_opens_pageLedger db matching page
  unfold openScopes
  omega

/-- The same for every beginning of the page. -/
theorem openScopes_take_pageLedger (page : List Command) (n : Nat) :
    openScopes ((pageLedger db matching page).take n) =
      (pageEnd db matching (page.take n)).scopes.length := by
  rw [take_pageLedger, openScopes_pageLedger]

/-- The peak of a page can be read off its roles. -/
theorem deepest_pageLedger (page : List Command) :
    deepest (pageLedger db matching page) = pagePeak db matching page := by
  apply Nat.le_antisymm
  · apply deepest_le
    intro n _
    rw [openScopes_take_pageLedger]
    exact length_scopes_run_take_le db matching blank page n
  · obtain ⟨n, hn, hpeak⟩ := exists_length_scopes_eq_peak db matching blank page
    rw [← length_pageLedger db matching page] at hn
    have hle := openScopes_take_le _ hn
    rw [openScopes_take_pageLedger] at hle
    rw [pagePeak, ← hpeak]
    exact hle

/-- Scopes that are closed do not count for the depth of what follows on the page. -/
theorem deepest_pageLedger_append {page : List Command} {before after : Ledger}
    (hparts : pageLedger db matching page = before ++ after) (hclosed : before.openScopes = 0) :
    deepest (pageLedger db matching page) = max before.deepest after.deepest := by
  have hbefore : before = pageLedger db matching (page.take before.length) := by
    rw [← take_pageLedger, hparts, List.take_left]
  have hcount := countP_opens_pageLedger db matching (page.take before.length)
  rw [← openScopes_pageLedger, ← hbefore, hclosed] at hcount
  rw [hparts]
  exact deepest_append hcount after

/-- No more scopes are open than there are commands. -/
theorem deepest_pageLedger_le (page : List Command) :
    deepest (pageLedger db matching page) ≤ page.length := by
  have hle : pagePeak db matching page ≤ 0 + page.length := peak_le db matching blank page
  rw [deepest_pageLedger]
  omega

variable {db matching} {kind : ScopeKind}

/-- A command that opens a scope, over and over. -/
theorem length_scopes_run_replicate (hpad : c.isSentinel = false)
    (hkind : db.kind? c.code = some (.scope kind)) (hpasses : kind.Passes matching c)
    (habsorber : s.absorber? = none) (hscopes : ∀ scope ∈ s.scopes, scope.kind = kind) (n : Nat) :
    (s.run db matching (List.replicate n c)).scopes.length = s.scopes.length + n := by
  induction n generalizing s with
  | zero => rfl
  | succ n ih =>
    have hfree : s.Frees c := by simp [Frees, habsorber]
    have hbody : s.Passes matching c := by
      intro kind' hkind'
      obtain ⟨scope, hscope, rfl⟩ := Option.map_eq_some_iff.1 hkind'
      rw [hscopes scope (List.mem_of_head? hscope)]
      exact hpasses
    have hstep : Step db matching s c _ _ := .opener hfree hbody hpad hkind
    rw [List.replicate_succ, run_cons, ← hstep.eq.2, ih rfl]
    · simp only [next, List.length_cons]
      omega
    · exact List.forall_mem_cons.2 ⟨rfl, hscopes⟩

/-- Every depth is reached: scopes opened one within the other nest as deep as there are of them. -/
theorem deepest_replicate (hpad : c.isSentinel = false)
    (hkind : db.kind? c.code = some (.scope kind)) (hpasses : kind.Passes matching c) (n : Nat) :
    deepest (pageLedger db matching (List.replicate n c)) = n := by
  apply Nat.le_antisymm
  · have hle := deepest_pageLedger_le db matching (List.replicate n c)
    rwa [List.length_replicate] at hle
  · have hnone : ∀ scope ∈ blank.scopes, scope.kind = kind := fun _ h => absurd h List.not_mem_nil
    have hopen := length_scopes_run_replicate hpad hkind hpasses rfl hnone n
    have hle := length_scopes_run_le_peak db matching blank (List.replicate n c)
    rw [hopen] at hle
    rw [deepest_pageLedger]
    exact Nat.le_trans (Nat.le_add_left n _) hle

end Sweep

open Sweep Ledger

/-- Parses a page without a bound on nesting. Each open scope takes a command of the page, so there
is always room for one more. -/
def parsePageUnbounded (db : Database) (matching : Matching) (diagnostics : Diagnostics)
    (log : Array LogRecord) (page : List Command) : PageResult :=
  parsePageWithin page.length db matching diagnostics log page

section

variable (db : Database) (matching : Matching) (diagnostics : Diagnostics) (log : Array LogRecord)
  (page : List Command)

/-- Without a bound no scope nests too deep. -/
theorem parsePageUnbounded_ne_nestingTooDeep (position : Int) :
    (parsePageUnbounded db matching diagnostics log page).outcome ≠
      .error (.nestingTooDeep position) := by
  intro hdeep
  have hlt := nestingTooDeep_iff.1 ⟨position, hdeep⟩
  have hle := deepest_pageLedger_le db matching page
  rw [deepest_pageLedger] at hle
  omega

/-- Whatever the bound, a page within it is parsed as without one, and a page beyond it nests too
deep. -/
theorem parsePageWithin_of_deepest (room : Nat) :
    (deepest (pageLedger db matching page) ≤ room →
        parsePageWithin room db matching diagnostics log page =
          parsePageUnbounded db matching diagnostics log page) ∧
      (room < deepest (pageLedger db matching page) →
        ∃ position, (parsePageWithin room db matching diagnostics log page).outcome =
          .error (.nestingTooDeep position)) := by
  have hlength := deepest_pageLedger_le db matching page
  rw [deepest_pageLedger] at hlength ⊢
  constructor
  · intro hle
    rw [parsePageUnbounded, parsePageWithin_of_peak_le hle, parsePageWithin_of_peak_le hlength]
  · exact nestingTooDeep_iff.2

/-- Only the nesting of scopes makes a page fail for want of room: the depth is that of the commands
that open and close scopes alone, and scopes that are closed do not count for what follows. With at
most 400 scopes open at once a page comes to the tree, the issues and the log or to the missing
terminator that it comes to without a bound; with 2000 or more it nests too deep, also if a
terminator is missing. -/
theorem parsePage_of_deepest :
    let ledger := pageLedger db matching page
    let unbounded := parsePageUnbounded db matching diagnostics log page
    let parse (room : Nat) := parsePageWithin room db matching diagnostics log page
    ledger.turns.deepest = ledger.deepest ∧
      (∀ before after, ledger = before ++ after → before.openScopes = 0 →
        ledger.deepest = max before.deepest after.deepest) ∧
      (∀ position, unbounded.outcome ≠ .error (.nestingTooDeep position)) ∧
      (∀ room, (ledger.deepest ≤ room → parse room = unbounded) ∧
        (room < ledger.deepest →
          ∃ position, (parse room).outcome = .error (.nestingTooDeep position))) ∧
      (ledger.deepest ≤ 400 → parsePage db matching diagnostics log page = unbounded) ∧
      (2000 ≤ ledger.deepest → ∃ position, (parsePage db matching diagnostics log page).outcome =
        .error (.nestingTooDeep position)) := by
  intro ledger unbounded parse
  have hroom := parsePageWithin_of_deepest db matching diagnostics log page
  obtain ⟨hwithin, hbeyond⟩ := hroom maxNesting
  have hmax : 400 ≤ maxNesting ∧ maxNesting < 2000 := by decide
  refine ⟨deepest_turns ledger, ?_, ?_, hroom, ?_, ?_⟩
  · intro before after hparts hclosed
    exact deepest_pageLedger_append db matching hparts hclosed
  · exact parsePageUnbounded_ne_nestingTooDeep db matching diagnostics log page
  · intro hle
    exact hwithin (Nat.le_trans hle hmax.1)
  · intro hle
    exact hbeyond (Nat.lt_of_lt_of_le hmax.2 hle)

end

/-- A page that opens a scope so many times and closes none. -/
def nestedSample (n : Nat) : List Command := List.replicate n (unclosedSample.headD .sentinel)

/-- This page is as deep as it is long. -/
theorem deepest_nestedSample (n : Nat) :
    deepest (pageLedger .sample .code (nestedSample n)) = n :=
  deepest_replicate rfl rfl ⟨by decide, by decide⟩ n

/-- Both bounds are reached. -/
theorem parsePage_of_deepest_sample :
    deepest (pageLedger .sample .code (nestedSample 400)) = 400 ∧
      parsePage .sample .code (.empty true) #[] (nestedSample 400) =
        parsePageUnbounded .sample .code (.empty true) #[] (nestedSample 400) ∧
      deepest (pageLedger .sample .code (nestedSample 2000)) = 2000 ∧
      ∃ position, (parsePage .sample .code (.empty true) #[] (nestedSample 2000)).outcome =
        .error (.nestingTooDeep position) := by
  obtain ⟨-, -, -, -, hwithin, -⟩ :=
    parsePage_of_deepest .sample .code (.empty true) #[] (nestedSample 400)
  obtain ⟨-, -, -, -, -, hbeyond⟩ :=
    parsePage_of_deepest .sample .code (.empty true) #[] (nestedSample 2000)
  have hless := deepest_nestedSample 400
  have hmore := deepest_nestedSample 2000
  exact ⟨hless, hwithin (Nat.le_of_eq hless), hmore, hbeyond (Nat.le_of_eq hmore.symm)⟩

end PageOutline
