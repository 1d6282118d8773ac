import PageOutline.Proofs.Matching
import PageOutline.Proofs.Padding.Insertion
import PageOutline.Proofs.Placing.Yields

/-!
# Runs of continuation lines

A text command that is placed takes in the whole run of commands with its continuation code that
follows it, and nothing else. A line without a text is left out and reported. It does not end the
run and plays no part in what becomes of the lines after it.
-/

namespace PageOutline

/-- The issues of a run, line by line: each is that of its own line at the index of the line. -/
theorem malformedLines_eq_filterMap (opener : Command) (start : Nat) (lines : List Command) :
    malformedLines opener start lines = (lines.zipIdx start).filterMap fun (line, j) =>
      if opener.text?.isSome && line.text?.isSome then none
      else some (malformedLine opener j line) := by
  induction lines generalizing start with
  | nil => rfl
  | cons line lines ih =>
    have hrest := ih (start + 1)
    rw [Int.natCast_succ] at hrest
    rw [malformedLines, List.zipIdx_cons, hrest]
    cases htexts : opener.text?.isSome && line.text?.isSome with
    | true => simp only [List.filterMap_cons, htexts, if_true]
    | false => simp only [List.filterMap_cons, htexts, Bool.false_eq_true, if_false]

/-- Texts are joined where there are any to join. -/
theorem Command.joined_of_text? {opener : Command} {lines : List Command} {t : List Nat}
    (ht : opener.text? = some t) (htexts : lines.filterMap text? ≠ []) :
    opener.joined lines =
      opener.withText ([lineBreak].intercalate (t :: lines.filterMap text?)) := by
  obtain ⟨u, us, hus⟩ := List.exists_cons_of_ne_nil htexts
  rw [joined, ht, hus]

/-- Where one side has no text, nothing is joined. -/
theorem Command.joined_eq_self {opener : Command} {lines : List Command}
    (h : opener.text? = none ∨ lines.filterMap text? = []) : opener.joined lines = opener := by
  rcases h with hnone | hnil
  · rw [joined, hnone]
  · rw [joined, hnil]
    cases opener.text? <;> rfl

/-- The role of a line hangs on the opening command only through whether that has a text. -/
theorem Role.ofLine_congr {opener opener' : Command}
    (h : opener'.text?.isSome = opener.text?.isSome) (node : Nat) (line : Command) :
    Role.ofLine node opener' line = Role.ofLine node opener line := by
  rw [Role.ofLine, Role.ofLine, h]

/-- Of a run those lines are merged that can be joined. -/
theorem Ledger.filter_merged_ofLine (node : Nat) (opener : Command) (lines : List Command) :
    ((lines.map fun line => (line, Role.ofLine node opener line)).filter
      (·.2 == .merged node)).map Prod.fst =
      lines.filter fun line => opener.text?.isSome && line.text?.isSome := by
  have hmerged : ∀ line, (Role.ofLine node opener line == .merged node) =
      (opener.text?.isSome && line.text?.isSome) := by
    intro line
    unfold Role.ofLine
    split
    next htexts =>
      rw [htexts]
      exact beq_self_eq_true _
    next htexts =>
      rw [Bool.eq_false_iff.2 htexts]
      exact beq_eq_false_iff_ne.2 (by simp)
  simp only [List.filter_map, List.map_map, Function.comp_def, hmerged, List.map_id']

/-- Wherever a text command is placed, the whole run of lines after it is taken, the texts of the
lines are joined, and the lines without one are reported. -/
theorem ParseState.parseCommand_of_text {db : Database} {s : ParseState} {parent : Nat}
    {c : Command} {continuation : CodeSlot} (hparent : parent < s.arena.size)
    (hpad : c.isSentinel = false) (hkind : db.kind? c.code = some (.text continuation))
    (matching : Matching) (room : Nat) :
    let lines := s.cursor.rest.takeWhile (continuation.holds ·.code)
    let journal := s.journal.addAll (malformedLines c (s.cursor.position + 1) lines)
    s.parseCommand db matching room parent c =
      (.ok (some s.arena.size),
        ⟨(s.arena.extend parent c).withCommand s.arena.size (c.joined lines),
          ⟨s.cursor.rest.dropWhile (continuation.holds ·.code), s.cursor.position + lines.length⟩,
          journal.diagnostics, journal.log⟩) := by
  intro lines journal
  rw [parseCommand, place_text hpad hkind hparent, ← Arena.graft_text hparent, Arena.graft_nil]

namespace Sweep

variable {db : Database} {matching : Matching} {s t : Sweep} {c : Command} {id node : Nat}
  {continuation : CodeSlot}

/-- The roles of the lines that an absorber takes. -/
theorem ledger_text (lines : List Command) (ha : s.absorber? = some (.text id continuation))
    (hid : id < s.arena.size) (htakes : ∀ c ∈ lines, continuation.holds c.code = true) :
    s.ledger db matching lines =
      lines.map fun line => (line, .ofLine id (s.arena.commandAt id) line) := by
  induction lines generalizing s with
  | nil => rfl
  | cons c lines ih =>
    have hc := htakes c (by simp)
    have hrest : ∀ d ∈ lines, continuation.holds d.code = true :=
      fun d hd => htakes d (by simp [hd])
    rw [ledger, List.map_cons, role_of_takes ha hc, step_of_takes db matching ha hc]
    refine congrArg (List.cons _) ?_
    cases hjoin : (s.arena.commandAt id).joinLine? c with
    | some joined =>
      simp only [absorb, advance, hjoin]
      rw [ih (by exact ha) (by simpa using hid) hrest]
      simp only [Arena.commandAt_withCommand hid]
      -- joining a line keeps it true or false that there is a text
      have htext : joined.text?.isSome = (s.arena.commandAt id).text?.isSome := by
        have hwhole := Command.joined_cons_of_some hjoin []
        rw [Command.joined_nil] at hwhole
        rw [← hwhole, Command.isSome_text?_joined]
      simp only [Role.ofLine_congr htext]
    | none =>
      simp only [absorb, advance, hjoin]
      exact ih (by exact ha) (by exact hid) hrest

/-- The issues of the lines that an absorber takes. -/
theorem issues_text (lines : List Command) (ha : s.absorber? = some (.text id continuation))
    (hid : id < s.arena.size) (htakes : ∀ c ∈ lines, continuation.holds c.code = true) :
    s.issues db matching lines =
      malformedLines (s.arena.commandAt id) (s.position + 1) lines := by
  have hrun : (s.run db matching lines).journal =
      s.journal.addAll (malformedLines (s.arena.commandAt id) (s.position + 1) lines) := by
    rw [run_text lines ha hid htakes]
  rw [journal_run] at hrun
  have hentries := congrArg (·.diagnostics.entries.toList) hrun
  simp only [Journal.entries_addAll] at hentries
  exact List.append_cancel_left hentries

/-- The issues of a run are about its own commands. -/
theorem position_of_mem_issues {cs : List Command} {d : Diagnostic}
    (h : d ∈ s.issues db matching cs) :
    s.position < d.position ∧ d.position ≤ s.position + cs.length := by
  obtain ⟨i, c, role, hentry, hissue⟩ := mem_issues_iff.1 h
  have hlt : i < (s.ledger db matching cs).length := (List.getElem?_eq_some_iff.1 hentry).1
  have hlength := congrArg List.length (map_fst_ledger db matching s cs)
  rw [List.length_map] at hlength
  have hposition := (of_mem_issuesAs hissue).1
  rw [position_run_take s hentry] at hposition
  omega

/-- What comes of a text command that is placed. -/
theorem Step.of_text (h : Step db matching s c (.leaf node) t)
    (hkind : db.kind? c.code = some (.text continuation)) :
    c.isSentinel = false ∧ node = s.arena.size ∧
      t = s.next (s.arena.extend s.parent c) s.scopes
        (some (.text s.arena.size continuation)) [] := by
  cases h with
  | text hfree hpasses hpad hkind' =>
    cases hkind.symm.trans hkind'
    exact ⟨hpad, rfl, rfl⟩
  | route hfree hpasses hpad hkind' => cases hkind.symm.trans hkind'
  | leaf hfree hpasses hpad halone => exact absurd (halone _ hkind) id

end Sweep

open Ledger Sweep

section Page

variable {db : Database} {matching : Matching} {page : List Command} {i node : Nat} {c : Command}
  {role : Role} {continuation : CodeSlot}

/-- The command at an index of a page and what comes before and after it. -/
theorem eq_of_getElem?_pageLedger (h : (pageLedger db matching page)[i]? = some (c, role)) :
    page = page.take i ++ c :: page.drop (i + 1) ∧ (page.take i).length = i ∧
      (pageEnd db matching (page.take i)).role db matching c = role := by
  have hcommand : page[i]? = some c := by
    have hmap := congrArg (Option.map Prod.fst) h
    rwa [← List.getElem?_map, map_fst_pageLedger] at hmap
  obtain ⟨hlt, hc⟩ := List.getElem?_eq_some_iff.1 hcommand
  have hparts : page = page.take i ++ c :: page.drop (i + 1) := by
    rw [← hc, ← List.drop_eq_getElem_cons hlt, List.take_append_drop]
  have hlength : (page.take i).length = i := by
    rw [List.length_take]
    omega
  have hentry := getElem?_pageLedger_append db matching (page.take i) c (page.drop (i + 1))
  rw [← hparts, hlength, h, Option.some.injEq, Prod.mk.injEq] at hentry
  exact ⟨hparts, hlength, hentry.2.symm⟩

/-- Behind a text command that is placed the sweep waits for its lines, and comes to the rest of the
ledger and of the issues. -/
theorem exists_sweep_of_text (hplace : (pageLedger db matching page)[i]? = some (c, .leaf node))
    (hkind : db.kind? c.code = some (.text continuation)) :
    c.isSentinel = false ∧ ∃ t : Sweep, t.position = i ∧
      t.absorber? = some (.text node continuation) ∧ node < t.arena.size ∧
      t.arena.commandAt node = c ∧
      pageLedger db matching page = pageLedger db matching (page.take i) ++
        (c, .leaf node) :: t.ledger db matching (page.drop (i + 1)) ∧
      pageIssues db matching page = pageIssues db matching (page.take i) ++
        t.issues db matching (page.drop (i + 1)) := by
  obtain ⟨hparts, hlength, hrole⟩ := eq_of_getElem?_pageLedger hplace
  generalize hs : pageEnd db matching (page.take i) = s at hrole
  have hstep := step_spec db matching s c
  rw [hrole] at hstep
  obtain ⟨hpad, hnode, hnext⟩ := hstep.of_text hkind
  have hposition : s.position + 1 = i := by
    have hbooks := (books_pageEnd db matching (page.take i)).position
    rwa [hs, length_pageLedger, hlength] at hbooks
  have hissuesAs : s.issuesAs db c (.leaf node) = [] := Command.leafIssues_of_kind? hkind _
  refine ⟨hpad, s.step db matching c, ?_, ?_, ?_, ?_, ?_, ?_⟩
  · rw [hnext]
    exact hposition
  · rw [hnext, hnode]
    rfl
  · rw [hnext, hnode]
    simp [Sweep.next]
  · rw [hnext, hnode]
    exact Arena.commandAt_extend ..
  · conv_lhs => rw [hparts]
    rw [pageLedger, ledger_append, ← pageLedger, ← pageEnd, hs, ledger, hrole]
  · conv_lhs => rw [hparts]
    rw [pageIssues, issues_append, ← pageIssues, ← pageEnd, hs, issues, hrole, hissuesAs,
      List.nil_append]

/-- The ledger and the issues of a page around a text command that is placed and the run of lines
after it. -/
theorem exists_parts_of_text (hplace : (pageLedger db matching page)[i]? = some (c, .leaf node))
    (hkind : db.kind? c.code = some (.text continuation)) :
    let lines := (page.drop (i + 1)).takeWhile (continuation.holds ·.code)
    c.isSentinel = false ∧
      (∃ later : Ledger, pageLedger db matching page = pageLedger db matching (page.take i) ++
          (c, .leaf node) :: (lines.map (fun line => (line, .ofLine node c line)) ++ later) ∧
        ∀ e ∈ later.head?, continuation.holds e.1.code = false) ∧
      ∃ later, pageIssues db matching page = pageIssues db matching (page.take i) ++
          (malformedLines c (i + 1) lines ++ later) ∧
        ∀ d ∈ later, i + lines.length < d.position := by
  intro lines
  obtain ⟨hpad, t, hposition, habsorber, hid, hcommand, hledger, hissues⟩ :=
    exists_sweep_of_text hplace hkind
  have hall := @List.all_takeWhile _ (fun d : Command => continuation.holds d.code)
    (page.drop (i + 1))
  have htakes : ∀ line ∈ lines, continuation.holds line.code = true :=
    List.all_eq_true.1 hall
  generalize hrest : (page.drop (i + 1)).dropWhile (continuation.holds ·.code) = rest
  have hdrop : page.drop (i + 1) = lines ++ rest := by
    rw [← hrest]
    exact List.takeWhile_append_dropWhile.symm
  rw [hdrop, ledger_append, ledger_text lines habsorber hid htakes, hcommand] at hledger
  rw [hdrop, issues_append, issues_text lines habsorber hid htakes, hcommand, hposition] at hissues
  refine ⟨hpad, ⟨_, hledger, ?_⟩, _, hissues, ?_⟩
  · intro e he
    have hmap := congrArg List.head? (map_fst_ledger db matching (t.run db matching lines) rest)
    rw [List.head?_map, Option.mem_def.1 he, Option.map_some] at hmap
    rw [← hrest] at hmap
    have hnot := List.head?_dropWhile_not (fun d : Command => continuation.holds d.code)
      (page.drop (i + 1))
    rwa [← hmap] at hnot
  · intro d hd
    have hlow := (position_of_mem_issues hd).1
    rwa [position_run, hposition] at hlow

/-- What a node takes in that stands for a text command has the continuation code of that
command. -/
theorem Ledger.Records.holds_of_text {taken : Ledger} {n : Node}
    (h : Records db c role taken n) (hkind : db.kind? c.code = some (.text continuation)) :
    ∀ e ∈ taken, continuation.holds e.1.code = true := by
  intro e he
  by_cases hcompanion : e.2 = .companion n.id
  · obtain ⟨other, hroute, -⟩ := h.entries e he hcompanion
    cases hkind.symm.trans hroute
  · obtain ⟨other, htext, hholds⟩ := h.lines e he hcompanion
    cases hkind.symm.trans htext
    exact hholds

/-- What a node takes in ends where the run of commands ends that it takes. -/
theorem Ledger.eq_of_append_eq {id : Nat} {taken after run later : Ledger}
    (h : taken ++ after = run ++ later) (hafter : ∀ e ∈ after, e.2.taker? ≠ some id)
    (hrun : ∀ e ∈ run, e.2.taker? = some id)
    (htaken : ∀ e ∈ taken, continuation.holds e.1.code = true)
    (hlater : ∀ e ∈ later.head?, continuation.holds e.1.code = false) :
    taken = run ∧ after = later := by
  rcases List.append_eq_append_iff.1 h with ⟨more, rfl, rfl⟩ | ⟨more, rfl, rfl⟩
  · cases more with
    | nil => simp
    | cons e more => exact absurd (hrun e (by simp)) (hafter e (by simp))
  · cases more with
    | nil => simp
    | cons e more =>
      have hholds := htaken e (by simp)
      rw [hlater e (by simp)] at hholds
      cases hholds

/-- The node of a text command that is placed takes in exactly the run of lines after it. -/
theorem exists_node_of_text (hplace : (pageLedger db matching page)[i]? = some (c, .leaf node))
    (hkind : db.kind? c.code = some (.text continuation)) :
    let lines := (page.drop (i + 1)).takeWhile (continuation.holds ·.code)
    ∃ (later : Ledger) (n : Node),
      pageLedger db matching page = (pageLedger db matching page).take i ++
        (c, .leaf node) :: (lines.map (fun line => (line, .ofLine node c line)) ++ later) ∧
      (∀ e ∈ (pageLedger db matching page).take i ++ later, e.2.taker? ≠ some node) ∧
      (pageEnd db matching page).arena.nodes[node]? = some n ∧
      Records db c (.leaf node) (lines.map fun line => (line, .ofLine node c line)) n := by
  intro lines
  obtain ⟨-, ⟨later, hledger, hlater⟩, -⟩ := exists_parts_of_text hplace hkind
  have hbooks := books_pageEnd db matching page
  have hmem : node ∈ (pageLedger db matching page).nodes :=
    List.mem_filterMap.2 ⟨_, List.mem_of_getElem? hplace, rfl⟩
  obtain ⟨n, hn, hid, before, c', role', taken, after, hparts, hrecords, hother⟩ :=
    hbooks.describes.accounts node hmem
  -- both ways of cutting the ledger cut it at the one entry with that node
  have hentry : (pageLedger db matching page)[before.length]? = some (c', role') := by
    rw [hparts, List.getElem?_append_right (Nat.le_refl _), Nat.sub_self]
    rfl
  have hindex : before.length = i := by
    refine Ledger.index_eq_of_node? hbooks.describes hentry hplace ?_ rfl
    rw [hrecords.node, hid]
  have hsame := hentry
  rw [hindex, hplace, Option.some.injEq, Prod.mk.injEq] at hsame
  obtain ⟨rfl, rfl⟩ := hsame
  have hbefore : before = (pageLedger db matching page).take i := by
    rw [hparts, ← hindex, List.take_left]
  have htake : pageLedger db matching (page.take i) = (pageLedger db matching page).take i := by
    rw [hledger, List.take_left']
    rw [length_pageLedger]
    exact (eq_of_getElem?_pageLedger hplace).2.1
  rw [htake] at hledger
  have htail :
      taken ++ after = lines.map (fun line => (line, Role.ofLine node c line)) ++ later := by
    have hboth := hparts.symm.trans hledger
    rw [hbefore] at hboth
    exact (List.cons.inj (List.append_cancel_left hboth)).2
  rw [hid] at hother
  obtain ⟨htaken, hafter⟩ := Ledger.eq_of_append_eq htail
    (fun e he => hother e (List.mem_append_right _ he))
    (List.forall_mem_map.2 fun line _ => Role.taker?_ofLine node c line)
    (hrecords.holds_of_text hkind) hlater
  rw [htaken] at hrecords
  rw [hbefore, hafter] at hother
  exact ⟨later, n, hledger, hother, hn, hrecords⟩

/-- Where a page is parsed to a tree, a text command that is placed takes in exactly the longest run
of commands with its continuation code that follows it directly. Its node has the command with the
texts of the run joined to its own, one to a line and in order, and nothing else of it changed;
without a text of its own, or where no line has one, it is left as it is. Every line that cannot be
joined is reported once, at its own index and in order, and nothing else is reported of the run. The
last part says the same of the parser's call for such a command, in any state and under any node. -/
theorem merging_of_parsePageWithin {room : Nat} {diagnostics : Diagnostics} {log : Array LogRecord}
    {tree : Tree}
    (hok : (parsePageWithin room db matching diagnostics log page).outcome = .ok tree)
    (hplace : (pageLedger db matching page)[i]? = some (c, .leaf node))
    (hkind : db.kind? c.code = some (.text continuation)) :
    let ledger := pageLedger db matching page
    let lines := (page.drop (i + 1)).takeWhile (continuation.holds ·.code)
    let texts := lines.filterMap Command.text?
    let r := parsePageWithin room db matching diagnostics log page
    (∃ later : Ledger, ledger = ledger.take i ++
        (c, .leaf node) :: (lines.map (fun line => (line, .ofLine node c line)) ++ later) ∧
      ∀ e ∈ ledger.take i ++ later, e.2.taker? ≠ some node) ∧
    (∃ n, tree.arena.nodes[node]? = some n ∧
      (∀ t, c.text? = some t → texts ≠ [] →
        n.command = c.withText ([lineBreak].intercalate (t :: texts))) ∧
      (c.text? = none ∨ texts = [] → n.command = c) ∧
      n.command.code = c.code ∧ n.command.indent = c.indent ∧
      n.command.parameters.length = c.parameters.length ∧
      n.command.parameters.tail = c.parameters.tail) ∧
    (∃ earlier later, r.diagnostics.entries.toList = diagnostics.entries.toList ++ (earlier ++
        ((lines.zipIdx (i + 1)).filterMap (fun (line, j) =>
          if c.text?.isSome && line.text?.isSome then none else some (malformedLine c j line)) ++
            later)) ∧
      (∀ d ∈ earlier, d.position < i) ∧ ∀ d ∈ later, i + lines.length < d.position) ∧
    ∀ (s : ParseState) (parent room : Nat), parent < s.arena.size →
      let lines := s.cursor.rest.takeWhile (continuation.holds ·.code)
      let journal := s.journal.addAll (malformedLines c (s.cursor.position + 1) lines)
      s.parseCommand db matching room parent c =
        (.ok (some s.arena.size),
          ⟨(s.arena.extend parent c).withCommand s.arena.size (c.joined lines),
            ⟨s.cursor.rest.dropWhile (continuation.holds ·.code),
              s.cursor.position + lines.length⟩,
            journal.diagnostics, journal.log⟩) := by
  intro ledger lines texts r
  have hpeak := peak_le_of_ok hok
  obtain ⟨hpad, -, laterIssues, hissues, hlaterIssues⟩ := exists_parts_of_text hplace hkind
  obtain ⟨later, n, hledger, hother, hn, hrecords⟩ := exists_node_of_text hplace hkind
  have hid : n.id = node := (Option.some.inj hrecords.node).symm
  have hcommand : n.command = c.joined lines := by
    rw [hrecords.command, hid, Ledger.filter_merged_ofLine, Command.joined_filter]
  have htree : tree.arena = (pageEnd db matching page).arena := by
    rw [outcome_of_peak_le hpeak] at hok
    rw [(outcome_eq_ok_iff.1 hok).2]
  refine ⟨⟨later, hledger, hother⟩,
    ⟨n, ?_, ?_, ?_, hrecords.code, hrecords.indent, hrecords.parameterCount, hrecords.parameters⟩,
    ⟨pageIssues db matching (page.take i), laterIssues, ?_, ?_, hlaterIssues⟩, ?_⟩
  · rw [htree]
    exact hn
  · exact fun t ht htexts => hcommand.trans (Command.joined_of_text? ht htexts)
  · exact fun h => hcommand.trans (Command.joined_eq_self h)
  · have hformula := malformedLines_eq_filterMap c (i + 1) lines
    rw [Int.natCast_succ] at hformula
    rw [← hformula, ← hissues]
    exact entries_of_peak_le hpeak
  · intro d hd
    have hhigh := (position_of_mem_issues hd).2
    rw [(eq_of_getElem?_pageLedger hplace).2.1] at hhigh
    have hstart : (blank : Sweep).position = -1 := rfl
    omega
  · exact fun s parent room hparent =>
      ParseState.parseCommand_of_text hparent hpad hkind matching room

end Page

/-- A text with a line that is no text among its lines. -/
theorem merging_sample :
    let command (code : Code) (parameter : Value) (h : code.InRange) : Command :=
      ⟨code, [parameter, .int 8], .int 2, h⟩
    let opener := command 4 (.str "a") (by decide)
    let page := [opener, command 5 (.str "b") (by decide), command 5 .null (by decide),
      command 5 (.str "c") (by decide), command 9 .null (by decide)]
    let r := parsePageWithin 1 .sample .code (.empty true) #[] page
    ∃ (tree : Tree) (n : Node) (earlier later : List Diagnostic), r.outcome = .ok tree ∧
      (pageLedger .sample .code page)[0]? = some (opener, .leaf 1) ∧
      Database.sample.kind? opener.code = some (.text (.int 5)) ∧
      tree.arena.nodes[1]? = some n ∧ n.command = opener.withText [97, 10, 98, 10, 99] ∧
      r.diagnostics.entries.toList =
        earlier ++ (malformedLine opener 2 (command 5 .null (by decide)) :: later) := by
  intro command opener page r
  obtain ⟨tree, hok⟩ : ∃ tree, r.outcome = .ok tree := ⟨_, rfl⟩
  have hplace : (pageLedger .sample .code page)[0]? = some (opener, .leaf 1) := rfl
  have hkind : Database.sample.kind? opener.code = some (.text (.int 5)) := rfl
  obtain ⟨-, ⟨n, hn, htext, -⟩, ⟨earlier, later, hentries, -⟩, -⟩ :=
    merging_of_parsePageWithin hok hplace hkind
  refine ⟨tree, n, earlier, later, hok, hplace, hkind, hn, ?_, ?_⟩
  · have hlines : ((page.drop 1).takeWhile (CodeSlot.holds (.int 5) ·.code)).filterMap
        Command.text? = [[98], [99]] := rfl
    exact htext [97] rfl (by rw [hlines]; simp)
  · exact hentries

end PageOutline
