import PageOutline.Proofs.Sweep.Page

/-!
# Issues are exact

A page has an issue for each command that is placed without a descriptor and for each line that
cannot be joined to the text before it, and for no other command. This is said of every page that
does not nest too deep, also of one that ends within a scope. How many codes are counted as unknown
and what is logged follows from the list of issues.
-/

namespace PageOutline

namespace Role

/-- Whether a command is placed in a body, as a leaf or as the opening command of a scope. -/
def IsPlaced : Role → Prop
  | leaf _ => True
  | opener _ => True
  | _ => False

/-- The node whose text a command goes on with. -/
def textNode? : Role → Option Nat
  | merged node => some node
  | dropped node => some node
  | _ => none

end Role

/-- The line that the log has for an issue at the level of warnings. Other records are not
warnings. -/
def LogRecord.warning? : LogRecord → Option String
  | .issue d => some d.text
  | _ => none

/-- Whether an issue is that of an unknown code. -/
def Diagnostic.isUnknown (code : Code) (d : Diagnostic) : Bool :=
  d.kind == .unknownCode && d.code == code

namespace Journal

variable (j : Journal) (d : Diagnostic) (ds : List Diagnostic)

/-- What is logged does not depend on the issues that were kept before. -/
@[simp] theorem isLogged_add (e : Diagnostic) :
    (j.add d).diagnostics.isLogged e = j.diagnostics.isLogged e := rfl

/-- The issues that are logged go to the log in their order. -/
theorem log_addAll :
    (j.addAll ds).log.toList =
      j.log.toList ++ (ds.filter j.diagnostics.isLogged).map .issue := by
  induction ds generalizing j with
  | nil => simp
  | cons d ds ih =>
    rw [addAll_cons, ih, List.filter_congr fun e _ => isLogged_add j d e]
    by_cases hlogged : j.diagnostics.isLogged d = true
    · simp [add, hlogged]
    · simp [add, hlogged]

/-- An unknown code is counted once more, and nothing else is. -/
theorem find?_unknownCodes_add (code : Code) :
    (j.add d).diagnostics.unknownCodes.find? code =
      if d.isUnknown code then some (j.diagnostics.unknownCount code + 1)
      else j.diagnostics.unknownCodes.find? code := by
  cases hkind : d.kind with
  | malformedText => simp [add, Diagnostics.add, Diagnostic.isUnknown, hkind]
  | unknownCode =>
    simp only [add, Diagnostics.add, hkind, Table.find?_insert, Diagnostic.isUnknown,
      beq_self_eq_true, Bool.true_and, beq_iff_eq]
    by_cases hcode : code = d.code
    · simp [hcode]
    · rw [if_neg hcode, if_neg (Ne.symm hcode)]

/-- A code is counted as often as there are issues with it. -/
theorem find?_unknownCodes_addAll (code : Code) :
    (j.addAll ds).diagnostics.unknownCodes.find? code =
      if ds.countP (·.isUnknown code) = 0 then j.diagnostics.unknownCodes.find? code
      else some (j.diagnostics.unknownCount code + ds.countP (·.isUnknown code)) := by
  induction ds generalizing j with
  | nil => simp
  | cons d ds ih =>
    have hcount : (j.add d).diagnostics.unknownCount code =
        j.diagnostics.unknownCount code + if d.isUnknown code then 1 else 0 := by
      rw [Diagnostics.unknownCount, find?_unknownCodes_add]
      split <;> rfl
    rw [addAll_cons, ih, find?_unknownCodes_add, hcount, List.countP_cons]
    by_cases hunknown : d.isUnknown code = true
    · simp only [hunknown, if_true, Nat.add_eq_zero_iff, Nat.one_ne_zero, and_false, if_false]
      split
      next hzero => rw [hzero]
      next => congr 1; omega
    · simp [hunknown]

/-- Whether unknown codes are logged has no part in what is collected. -/
theorem addAll_congr {j j' : Journal} (hentries : j.diagnostics.entries = j'.diagnostics.entries)
    (hcodes : j.diagnostics.unknownCodes = j'.diagnostics.unknownCodes) (ds : List Diagnostic) :
    (j.addAll ds).diagnostics.entries = (j'.addAll ds).diagnostics.entries ∧
      (j.addAll ds).diagnostics.unknownCodes = (j'.addAll ds).diagnostics.unknownCodes := by
  induction ds generalizing j j' with
  | nil => exact ⟨hentries, hcodes⟩
  | cons d ds ih =>
    refine ih ?_ ?_
    · simp only [add, Diagnostics.add, hentries]
    · simp only [add, Diagnostics.add, Diagnostics.unknownCount, hcodes]

end Journal

namespace Sweep

variable {db : Database} {matching : Matching} {s : Sweep} {cs : List Command} {d : Diagnostic}

/-- The issues that a command has in a role. -/
theorem mem_issuesAs_iff {c : Command} {role : Role} :
    d ∈ s.issuesAs db c role ↔
      ((∃ node, role = .leaf node) ∧ db.get? c.code = none ∧ d = c.unknownIssue (s.position + 1)) ∨
        ∃ node, role = .dropped node ∧
          d = malformedLine (s.arena.commandAt node) (s.position + 1) c := by
  cases role with
  | leaf node =>
    cases hd : db.get? c.code <;> simp [issuesAs, Command.leafIssues, hd]
  | dropped node => simp [issuesAs]
  | _ => simp [issuesAs]

/-- An issue is that of a command in a role: it has its code and its index. -/
theorem of_mem_issuesAs {c : Command} {role : Role} (h : d ∈ s.issuesAs db c role) :
    d.position = s.position + 1 ∧ d.code = c.code := by
  rcases mem_issuesAs_iff.1 h with ⟨-, -, rfl⟩ | ⟨node, -, rfl⟩ <;> exact ⟨rfl, rfl⟩

/-- An issue of a run is that of one of its commands. -/
theorem mem_issues_iff :
    d ∈ s.issues db matching cs ↔
      ∃ (i : Nat) (c : Command) (role : Role), (s.ledger db matching cs)[i]? = some (c, role) ∧
        d ∈ (s.run db matching (cs.take i)).issuesAs db c role := by
  induction cs generalizing s with
  | nil => simp [issues, ledger]
  | cons c cs ih =>
    rw [issues, List.mem_append, ih]
    constructor
    · rintro (hhead | ⟨i, c', role, hmem, hd⟩)
      · exact ⟨0, c, _, rfl, hhead⟩
      · exact ⟨i + 1, c', role, by simpa [ledger] using hmem, hd⟩
    · rintro ⟨i, c', role, hmem, hd⟩
      cases i with
      | zero =>
        simp only [ledger, List.getElem?_cons_zero, Option.some.injEq, Prod.mk.injEq] at hmem
        obtain ⟨rfl, rfl⟩ := hmem
        exact Or.inl hd
      | succ i =>
        simp only [ledger, List.getElem?_cons_succ] at hmem
        exact Or.inr ⟨i, c', role, hmem, hd⟩

/-- The point where a sweep stands before the command at an index. -/
theorem position_run_take {i : Nat} {e : Command × Role} (s : Sweep)
    (h : (s.ledger db matching cs)[i]? = some e) :
    (s.run db matching (cs.take i)).position = s.position + i := by
  have hlt : i < (s.ledger db matching cs).length := (List.getElem?_eq_some_iff.1 h).1
  have hlength := congrArg List.length (map_fst_ledger db matching s cs)
  rw [List.length_map] at hlength
  rw [position_run, List.length_take]
  omega

/-- The issues of a run come in the order of its commands, at most one for each. -/
theorem pairwise_issues (s : Sweep) (cs : List Command) :
    (s.issues db matching cs).Pairwise fun d e => d.position < e.position := by
  induction cs generalizing s with
  | nil => exact List.Pairwise.nil
  | cons c cs ih =>
    have hone : (s.issuesAs db c (s.role db matching c)).length ≤ 1 := by
      cases s.role db matching c with
      | leaf node =>
        simp only [issuesAs, Command.leafIssues]
        split <;> simp
      | _ => simp [issuesAs]
    refine List.pairwise_append.2 ⟨?_, ih _, fun d hd e he => ?_⟩
    · cases hlist : s.issuesAs db c (s.role db matching c) with
      | nil => exact List.Pairwise.nil
      | cons d ds =>
        rw [hlist] at hone
        have hds : ds = [] := List.length_eq_zero_iff.1 (by simpa using hone)
        rw [hds]
        exact List.pairwise_singleton ..
    · obtain ⟨i, c', role, hmem, he'⟩ := mem_issues_iff.1 he
      have hd' := (of_mem_issuesAs hd).1
      have he'' := (of_mem_issuesAs he').1
      rw [position_run_take _ hmem, (step_spec db matching s c).position] at he''
      omega

end Sweep

namespace Ledger

variable {db : Database} {matching : Matching} {ledger : Ledger}

/-- A node is made for one command only. -/
theorem eq_of_node? {arena : Arena} (h : ledger.Describes db arena) {e e' : Command × Role}
    (he : e ∈ ledger) (he' : e' ∈ ledger) {id : Nat} (hnode : e.2.node? = some id)
    (hnode' : e'.2.node? = some id) : e = e' := by
  have hdistinct : ledger.Pairwise fun e e' =>
      ∀ i, e.2.node? = some i → ∀ i', e'.2.node? = some i' → i ≠ i' := by
    have hnodup : ledger.nodes.Nodup := by
      rw [h.nodes]
      exact List.nodup_range' ..
    exact List.pairwise_filterMap.1 hnodup
  obtain ⟨i, hi, rfl⟩ := List.mem_iff_getElem.1 he
  obtain ⟨i', hi', rfl⟩ := List.mem_iff_getElem.1 he'
  rw [List.pairwise_iff_getElem] at hdistinct
  rcases Nat.lt_trichotomy i i' with hlt | rfl | hlt
  · exact absurd rfl (hdistinct i i' hi hi' hlt id hnode id hnode')
  · rfl
  · exact absurd rfl (hdistinct i' i hi' hi hlt id hnode' id hnode)

/-- The issues that a ledger gives rise to: codes without a descriptor where a command is placed,
and lines after a text command where one of the two has no text. -/
structure Reports (db : Database) (ledger : Ledger) (issues : List Diagnostic) : Prop where
  increasing : issues.Pairwise fun d e => d.position < e.position
  concerned : ∀ d ∈ issues, ∃ (i : Nat) (c : Command) (role : Role),
    ledger[i]? = some (c, role) ∧ d.position = i ∧ d.code = c.code
  unknown : ∀ i : Nat, (∃ d ∈ issues, d.kind = .unknownCode ∧ d.position = i) ↔
    ∃ (c : Command) (role : Role), ledger[i]? = some (c, role) ∧ role.IsPlaced ∧
      db.get? c.code = none
  malformed : ∀ i : Nat, (∃ d ∈ issues, d.kind = .malformedText ∧ d.position = i) ↔
    ∃ (line : Command) (role : Role) (opener : Command) (node : Nat) (continuation : CodeSlot),
      ledger[i]? = some (line, role) ∧ role.textNode? = some node ∧
      (opener, Role.leaf node) ∈ ledger ∧ db.kind? opener.code = some (.text continuation) ∧
      ¬(opener.text?.isSome = true ∧ line.text?.isSome = true)

end Ledger

open Ledger Sweep

section Page

variable (db : Database) (matching : Matching) (page : List Command)

/-- The command that is read next is the one at the index. -/
theorem position_before {i : Nat} {e : Command × Role}
    (h : (pageLedger db matching page)[i]? = some e) :
    (blank.run db matching (page.take i)).position + 1 = i := by
  rw [position_run_take blank h]
  show -1 + (i : Int) + 1 = i
  omega

/-- The issue at an index of a page. -/
theorem mem_pageIssues_iff {d : Diagnostic} :
    d ∈ pageIssues db matching page ↔
      ∃ (i : Nat) (c : Command) (role : Role), (pageLedger db matching page)[i]? = some (c, role) ∧
        d.position = i ∧ d ∈ (blank.run db matching (page.take i)).issuesAs db c role := by
  refine mem_issues_iff.trans ⟨?_, ?_⟩
  · rintro ⟨i, c, role, hmem, hd⟩
    have hposition := (of_mem_issuesAs hd).1.trans (position_before db matching page hmem)
    exact ⟨i, c, role, hmem, hposition, hd⟩
  · rintro ⟨i, c, role, hmem, -, hd⟩
    exact ⟨i, c, role, hmem, hd⟩

/-- The issues of a page are those that its ledger gives rise to. -/
theorem reports_pageLedger :
    (pageLedger db matching page).Reports db (pageIssues db matching page) := by
  have hbooks := books_pageEnd db matching page
  -- The command at an index determines the issue there, as indices are not repeated.
  have hsame : ∀ {i i' : Nat} {d : Diagnostic}, d.position = i → d.position = i' → i = i' := by
    intro i i' d hi hi'
    exact Int.ofNat.inj (hi.symm.trans hi')
  refine ⟨pairwise_issues blank page, ?concerned, fun i => ⟨?_, ?_⟩, fun i => ⟨?_, ?_⟩⟩
  case concerned =>
    intro d hd
    obtain ⟨i, c, role, hmem, hposition, hissue⟩ := (mem_pageIssues_iff db matching page).1 hd
    exact ⟨i, c, role, hmem, hposition, (of_mem_issuesAs hissue).2⟩
  · rintro ⟨d, hd, hkind, hposition⟩
    obtain ⟨i', c, role, hmem, hposition', hissue⟩ := (mem_pageIssues_iff db matching page).1 hd
    cases hsame hposition hposition'
    rcases mem_issuesAs_iff.1 hissue with ⟨⟨node, rfl⟩, hget, -⟩ | ⟨node, -, rfl⟩
    · exact ⟨c, _, hmem, trivial, hget⟩
    · cases hkind
  · rintro ⟨c, role, hmem, hplaced, hget⟩
    have hgrounds := hbooks.grounds _ (List.mem_of_getElem? hmem)
    cases role with
    | leaf node =>
      let before := blank.run db matching (page.take i)
      let d := c.unknownIssue (before.position + 1)
      have hissue : d ∈ before.issuesAs db c (.leaf node) :=
        mem_issuesAs_iff.2 (Or.inl ⟨⟨node, rfl⟩, hget, rfl⟩)
      have hd : d ∈ pageIssues db matching page := mem_issues_iff.2 ⟨i, c, _, hmem, hissue⟩
      exact ⟨d, hd, rfl, position_before db matching page hmem⟩
    | opener node =>
      obtain ⟨kind, hkind⟩ := hgrounds
      simp [Database.kind?, hget] at hkind
    | _ => exact hplaced.elim
  · rintro ⟨d, hd, hkind, hposition⟩
    obtain ⟨i', line, role, hmem, hposition', hissue⟩ := (mem_pageIssues_iff db matching page).1 hd
    cases hsame hposition hposition'
    rcases mem_issuesAs_iff.1 hissue with ⟨-, -, rfl⟩ | ⟨node, rfl, -⟩
    · cases hkind
    · obtain ⟨opener, continuation, hopener, hkind', -, htexts⟩ :=
        hbooks.grounds _ (List.mem_of_getElem? hmem)
      exact ⟨line, _, opener, node, continuation, hmem, rfl, hopener, hkind', htexts⟩
  · rintro ⟨line, role, opener, node, continuation, hmem, hnode, hopener, hkind, htexts⟩
    have hgrounds := hbooks.grounds _ (List.mem_of_getElem? hmem)
    have hdropped : role = .dropped node := by
      cases role with
      | merged node' =>
        cases hnode
        obtain ⟨opener', continuation', hopener', -, -, htexts'⟩ := hgrounds
        have heq := eq_of_node? hbooks.describes hopener hopener' rfl rfl
        cases heq
        exact absurd htexts' htexts
      | dropped node' => cases hnode; rfl
      | _ => cases hnode
    subst hdropped
    let before := blank.run db matching (page.take i)
    let d := malformedLine (before.arena.commandAt node) (before.position + 1) line
    have hissue : d ∈ before.issuesAs db line (.dropped node) :=
      mem_issuesAs_iff.2 (Or.inr ⟨node, rfl, rfl⟩)
    have hd : d ∈ pageIssues db matching page := mem_issues_iff.2 ⟨i, line, _, hmem, hissue⟩
    exact ⟨d, hd, rfl, position_before db matching page hmem⟩

/-- The parser's arena is that of the sweep, also where a scope is not closed. -/
theorem arena_parseRest {room : Nat} (logsUnknown : Bool) (log : Array LogRecord)
    (h : pagePeak db matching page ≤ room) :
    ((ParseState.start (.empty logsUnknown) log page).parseRest db matching room
      Tree.empty.root).2.arena = (pageEnd db matching page).arena := by
  have hcases := ParseState.parseRest_cases db matching room (.empty logsUnknown) log page
  simp only [peak_start, run_start] at hcases
  generalize (ParseState.start (.empty logsUnknown) log page).parseRest db matching room
    Tree.empty.root = r at hcases ⊢
  obtain ⟨e | ids, s'⟩ := r
  · rcases hcases with ⟨-, -, harena, -⟩ | ⟨hdeep, -⟩
    · exact harena.symm
    · omega
  · rcases hcases with ⟨-, hrun⟩ | ⟨hdeep, -⟩
    · exact (congrArg Sweep.arena hrun).symm
    · omega

end Page

/-- The summary of a page is no warning. -/
theorem Sweep.warnings_result (s : Sweep) :
    s.result.log.toList.filterMap LogRecord.warning? =
      s.journal.log.toList.filterMap LogRecord.warning? := by
  unfold result
  cases s.failure? <;> simp [LogRecord.warning?]

/-- What is logged of issues at the level of warnings is their texts. -/
theorem Journal.warnings_addAll (j : Journal) (ds : List Diagnostic) :
    (j.addAll ds).log.toList.filterMap LogRecord.warning? =
      j.log.toList.filterMap LogRecord.warning? ++
        (ds.filter j.diagnostics.isLogged).map Diagnostic.text := by
  have htexts : LogRecord.warning? ∘ LogRecord.issue = some ∘ Diagnostic.text := rfl
  rw [log_addAll, List.filterMap_append, List.filterMap_map, htexts, List.filterMap_eq_map]

/-- The issues of a page that does not nest too deep are exact, whether or not all its scopes are
closed. The commands' roles are told by a ledger that describes the arena of the parser. Unknown
codes are counted as often as there are issues with them, the log has the texts of the issues, and
leaving unknown codes out of it changes nothing else. -/
theorem issues_of_parsePageWithin {db : Database} {matching : Matching} {room : Nat}
    {logsUnknown : Bool} {log : Array LogRecord} {page : List Command}
    (h : ∀ position, (parsePageWithin room db matching (.empty logsUnknown) log page).outcome ≠
      .error (.nestingTooDeep position)) :
    let r := parsePageWithin room db matching (.empty logsUnknown) log page
    let parsed := (ParseState.start (.empty logsUnknown) log page).parseRest db matching room
      Tree.empty.root
    let ledger := Sweep.pageLedger db matching page
    let entries := r.diagnostics.entries.toList
    (ledger.map Prod.fst = page ∧ ledger.Describes db parsed.2.arena ∧
        ∀ e ∈ ledger, ledger.Grounds db matching e) ∧
      ledger.Reports db entries ∧
      (∀ code, r.diagnostics.unknownCodes.find? code =
        if entries.countP (·.isUnknown code) = 0 then none
        else some (entries.countP (·.isUnknown code))) ∧
      r.log.toList.filterMap LogRecord.warning? = log.toList.filterMap LogRecord.warning? ++
        (entries.filter fun d => d.kind != .unknownCode || logsUnknown).map Diagnostic.text ∧
      ∀ other, (parsePageWithin room db matching (.empty other) log page).outcome = r.outcome ∧
        (parsePageWithin room db matching (.empty other) log page).diagnostics.entries =
          r.diagnostics.entries ∧
        (parsePageWithin room db matching (.empty other) log page).diagnostics.unknownCodes =
          r.diagnostics.unknownCodes := by
  intro r parsed ledger entries
  have hpeak : pagePeak db matching page ≤ room := peak_le_of_outcome rfl h
  have hdiagnostics : r.diagnostics =
      (Journal.addAll ⟨.empty logsUnknown, log⟩ (pageIssues db matching page)).diagnostics :=
    diagnostics_of_peak_le hpeak
  have hentries : entries = pageIssues db matching page := entries_of_peak_le hpeak
  have hlog : r.log.toList.filterMap LogRecord.warning? =
      (Journal.addAll ⟨.empty logsUnknown, log⟩
        (pageIssues db matching page)).log.toList.filterMap LogRecord.warning? := by
    rw [show r = _ from parsePageWithin_of_peak_le hpeak, warnings_result]
    rfl
  have hbooks := books_pageEnd db matching page
  refine ⟨⟨map_fst_pageLedger db matching page, ?_, hbooks.grounds⟩, ?_, fun code => ?_, ?_,
    fun other => ⟨?_, ?_⟩⟩
  · rw [show parsed.2.arena = _ from arena_parseRest db matching page logsUnknown log hpeak]
    exact hbooks.describes
  · rw [hentries]
    exact reports_pageLedger db matching page
  · rw [hdiagnostics, hentries, Journal.find?_unknownCodes_addAll]
    simp [Diagnostics.unknownCount, Diagnostics.empty, Table.empty, Table.find?]
  · rw [hlog, hentries, Journal.warnings_addAll]
    rfl
  · exact (outcome_of_peak_le hpeak).trans (outcome_of_peak_le hpeak).symm
  · rw [hdiagnostics, diagnostics_of_peak_le hpeak]
    refine Journal.addAll_congr ?_ ?_ _
    · rfl
    · rfl

/-- The issues of a page that ends within its scope, with unknown codes left out of the log. -/
theorem issues_sample :
    (∀ position, (parsePageWithin 1 .sample .code (.empty false) #[] unclosedSample).outcome ≠
        .error (.nestingTooDeep position)) ∧
      (Sweep.pageLedger .sample .code unclosedSample).Reports .sample
        (parsePageWithin 1 .sample .code (.empty false) #[]
          unclosedSample).diagnostics.entries.toList := by
  have h : ∀ position, (parsePageWithin 1 .sample .code (.empty false) #[] unclosedSample).outcome ≠
      .error (.nestingTooDeep position) := by
    have houtcome : (parsePageWithin 1 .sample .code (.empty false) #[] unclosedSample).outcome =
      .error (.unterminated 1 0 (.int 3)) := rfl
    intro position
    rw [houtcome]
    exact fun heq => by cases heq
  exact ⟨h, (issues_of_parsePageWithin h).2.1⟩

end PageOutline
