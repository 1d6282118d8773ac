import PageOutline.Proofs.Nesting

/-!
# How a page can fail

A page gives a tree, lacks a terminator or nests too deep, and its roles say which of the three it
is. No look-up fails on the way: nodes that receive commands stay in the arena as it grows, a text
that lines are joined to stands in a parameter, and a command that was looked at is still there to
be taken.
-/

namespace PageOutline

/-- Whether an error says something of the page. The others say that a look-up failed. -/
def PageError.isOfPage : PageError → Bool
  | unterminated _ _ _ => true
  | nestingTooDeep _ => true
  | nodeNotFound _ => false
  | noParameter _ => false

open Sweep Ledger

variable {db : Database} {matching : Matching} {room : Nat}

/-- Reading fails for the page alone. -/
theorem Sweep.Fails.isOfPage {s : Sweep} {cs : List Command} {e : PageError} {arena : Arena}
    {journal : Journal} (h : Fails db matching room s cs e arena journal) : e.isOfPage = true := by
  cases h with
  | tooDeep position he hpeak =>
    rw [he]
    rfl
  | unterminated hpeak he harena hjournal =>
    unfold failure? at he
    split at he
    · cases he
    · cases he
      rfl

/-- A command that is placed under a node fails for the page alone, and otherwise leaves all
nodes. -/
theorem ParseState.parseCommand_of_lt {s : ParseState} {parent : Nat} (h : parent < s.arena.size)
    (c : Command) :
    (∀ e, (s.parseCommand db matching room parent c).1 = .error e → e.isOfPage = true) ∧
      ∀ id?, (s.parseCommand db matching room parent c).1 = .ok id? →
        s.arena.size ≤ (s.parseCommand db matching room parent c).2.arena.size := by
  have hparent : (s.sweep parent []).parent < s.arena.size := h
  have hreads : Reads db matching room parent s.arena.size [] _ s.cursor.rest
      (s.parseCommand db matching room parent c) :=
    parseCommand_reads hparent (by simp) c
  generalize s.parseCommand db matching room parent c = r at hreads ⊢
  obtain ⟨e | id?, s'⟩ := r
  · constructor
    · intro e' he
      cases he
      exact Fails.isOfPage hreads
    · intro id? hid
      cases hid
  · constructor
    · intro e he
      cases he
    · intro id?' _
      exact hreads.1

section

variable (db matching) (diagnostics : Diagnostics) (log : Array LogRecord) (page : List Command)

/-- A page gives a tree exactly if there is room for its scopes and it closes all of them. -/
theorem exists_tree_iff :
    (∃ tree, (parsePageWithin room db matching diagnostics log page).outcome = .ok tree) ↔
      (pageLedger db matching page).deepest ≤ room ∧
        (pageLedger db matching page).openScopes = 0 := by
  rw [deepest_pageLedger, openScopes_pageLedger, List.length_eq_zero_iff]
  constructor
  · rintro ⟨tree, htree⟩
    have hpeak := peak_le_of_ok htree
    rw [outcome_of_peak_le hpeak] at htree
    exact ⟨hpeak, (outcome_eq_ok_iff.1 htree).1⟩
  · rintro ⟨hpeak, hclosed⟩
    rw [outcome_of_peak_le hpeak]
    exact ⟨_, outcome_eq_ok_iff.2 ⟨hclosed, rfl⟩⟩

/-- A page lacks a terminator exactly if there is room for its scopes and one is open at its end. -/
theorem exists_unterminated_iff :
    (∃ opener position terminator,
        (parsePageWithin room db matching diagnostics log page).outcome =
          .error (.unterminated opener position terminator)) ↔
      (pageLedger db matching page).deepest ≤ room ∧
        0 < (pageLedger db matching page).openScopes := by
  rw [deepest_pageLedger, openScopes_pageLedger, List.length_pos_iff_exists_cons]
  constructor
  · rintro ⟨opener, position, terminator, herror⟩
    have hpeak := peak_le_of_unterminated herror
    rw [outcome_of_peak_le hpeak] at herror
    obtain ⟨scope, outer, hscopes, -⟩ := outcome_eq_error_iff.1 herror
    exact ⟨hpeak, scope, outer, hscopes⟩
  · rintro ⟨hpeak, scope, outer, hscopes⟩
    rw [outcome_of_peak_le hpeak]
    exact ⟨_, _, _, outcome_eq_error_iff.2 ⟨scope, outer, hscopes, rfl⟩⟩

/-- A page nests too deep exactly if more scopes are open at once than there is room for. -/
theorem exists_nestingTooDeep_iff :
    (∃ position, (parsePageWithin room db matching diagnostics log page).outcome =
        .error (.nestingTooDeep position)) ↔
      room < (pageLedger db matching page).deepest := by
  rw [deepest_pageLedger]
  exact nestingTooDeep_iff

/-- An error of a page says something of the page. -/
theorem isOfPage_of_error {e : PageError}
    (h : (parsePageWithin room db matching diagnostics log page).outcome = .error e) :
    e.isOfPage = true := by
  rcases Nat.lt_or_ge room (pageLedger db matching page).deepest with hlt | hle
  · obtain ⟨position, hdeep⟩ := (exists_nestingTooDeep_iff db matching diagnostics log page).2 hlt
    rw [h] at hdeep
    cases hdeep
    rfl
  · rw [deepest_pageLedger] at hle
    rw [outcome_of_peak_le hle] at h
    obtain ⟨scope, outer, -, rfl⟩ := outcome_eq_error_iff.1 h
    rfl

/-- A page gives a tree if it closes all its scopes, lacks a terminator if it does not, and nests
too deep if more scopes are open at once than there is room for; nothing else comes of it. Neither
does a command that is placed under a node fail for a node that is missing or a parameter, and it
leaves all nodes. What a run takes is handed out one command at a time, and nothing is handed out
only at the end and before a command with another code. -/
theorem parsePageWithin_outcome (room : Nat) :
    let outcome := (parsePageWithin room db matching diagnostics log page).outcome
    let ledger := pageLedger db matching page
    ((∃ tree, outcome = .ok tree) ↔ ledger.deepest ≤ room ∧ ledger.openScopes = 0) ∧
      ((∃ opener position terminator,
          outcome = .error (.unterminated opener position terminator)) ↔
        ledger.deepest ≤ room ∧ 0 < ledger.openScopes) ∧
      ((∃ position, outcome = .error (.nestingTooDeep position)) ↔ room < ledger.deepest) ∧
      (∀ e, outcome = .error e → e.isOfPage = true) ∧
      (∀ (s : ParseState) (parent : Nat) (c : Command), parent < s.arena.size →
        (∀ e, (s.parseCommand db matching room parent c).1 = .error e → e.isOfPage = true) ∧
          ∀ id?, (s.parseCommand db matching room parent c).1 = .ok id? →
            s.arena.size ≤ (s.parseCommand db matching room parent c).2.arena.size) ∧
      ∀ cursor : Cursor,
        (∀ code, cursor.nextIfCode? code = none ↔ ∀ c ∈ cursor.peek?, c.code ≠ code) ∧
          ∀ slot : CodeSlot, cursor.takeRun slot =
            match slot.equalInt?.bind cursor.nextIfCode? with
            | none => ([], cursor)
            | some (c, after) => (c :: (after.takeRun slot).1, (after.takeRun slot).2) := by
  intro outcome ledger
  refine ⟨exists_tree_iff .., exists_unterminated_iff .., exists_nestingTooDeep_iff .., ?_, ?_, ?_⟩
  · intro e he
    exact isOfPage_of_error db matching diagnostics log page he
  · intro s parent c hparent
    exact ParseState.parseCommand_of_lt hparent c
  · intro cursor
    exact ⟨fun code => Cursor.nextIfCode?_eq_none_iff, cursor.takeRun_eq⟩

end

/-- One page without room for its scope, with its scope open at the end, and with that closed. -/
theorem parsePageWithin_outcome_sample :
    let closed := unclosedSample ++ [⟨3, [], .int 0, by decide⟩]
    let outcome (room : Nat) (page : List Command) :=
      (parsePageWithin room .sample .code (.empty true) #[] page).outcome
    (∃ position, outcome 0 unclosedSample = .error (.nestingTooDeep position)) ∧
      (∃ opener position terminator,
        outcome 1 unclosedSample = .error (.unterminated opener position terminator)) ∧
      ∃ tree, outcome 1 closed = .ok tree := by
  intro closed outcome
  have hdeepest : (pageLedger .sample .code unclosedSample).deepest = 1 := by decide
  have hopen : (pageLedger .sample .code unclosedSample).openScopes = 1 := by decide
  have hdeepest' : (pageLedger .sample .code closed).deepest = 1 := by decide
  have hopen' : (pageLedger .sample .code closed).openScopes = 0 := by decide
  have hless := parsePageWithin_outcome .sample .code (.empty true) #[] unclosedSample 0
  have hmore := parsePageWithin_outcome .sample .code (.empty true) #[] unclosedSample 1
  have hend := parsePageWithin_outcome .sample .code (.empty true) #[] closed 1
  refine ⟨hless.2.2.1.2 ?_, hmore.2.1.2 ⟨?_, ?_⟩, hend.1.2 ⟨?_, hopen'⟩⟩
  · rw [hdeepest]
    exact Nat.one_pos
  · exact Nat.le_of_eq hdeepest
  · rw [hopen]
    exact Nat.one_pos
  · exact Nat.le_of_eq hdeepest'

end PageOutline
