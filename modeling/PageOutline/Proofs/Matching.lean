import Mathlib.Data.List.Find
import PageOutline.Proofs.Issues
import PageOutline.Proofs.Links
import PageOutline.Proofs.Lockstep

/-!
# The two ways to recognise delimiters

Matching by parameter asks a delimiter for the parameter that tells arms of one code apart, and asks
for its presence only. On a page whose delimiters all have that parameter both ways of matching read
every command alike, and each delimiter starts an arm of its own, even if the parameter's value is
one that an earlier arm has.
-/

namespace PageOutline

/-- Whether each command of a page with the code of a delimiter has the parameter that tells arms of
that code apart. The delimiters are those of all scopes that a command of the page can open. -/
def Database.TellsArms (db : Database) (page : List Command) : Prop :=
  ∀ c ∈ page, ∀ opener ∈ page, ∀ kind, db.kind? opener.code = some (.scope kind) →
    ∀ b ∈ kind.branches, b.code.holds c.code = true →
      ∀ i ∈ b.duplicateParameter?, i < c.parameters.length

/-- A delimiter with the parameter that it may be asked for is accepted in either way. -/
theorem Branch.accepts_eq {b : Branch} {c : Command}
    (h : b.code.holds c.code = true → ∀ i ∈ b.duplicateParameter?, i < c.parameters.length)
    (matching : Matching) : b.accepts matching c = b.code.holds c.code := by
  cases hholds : b.code.holds c.code with
  | false => simp [accepts, hholds]
  | true =>
    have hpresent : b.duplicateParameter?.all (· < c.parameters.length) = true := by
      rw [Option.all_eq_true]
      intro i hi
      exact decide_eq_true (h hholds i hi)
    simp [accepts, hholds, hpresent]

variable {db : Database} {page : List Command}

/-- The scopes that a page can open have the same delimiters in either way of matching. -/
theorem Database.TellsArms.findBranch?_eq (h : db.TellsArms page) {c opener : Command}
    {kind : ScopeKind} (hc : c ∈ page) (hopener : opener ∈ page)
    (hkind : db.kind? opener.code = some (.scope kind)) (matching matching' : Matching) :
    kind.findBranch? matching c = kind.findBranch? matching' c := by
  have haccepts : ∀ m : Matching, ∀ b ∈ kind.branches, b.accepts m c = b.code.holds c.code :=
    fun m b hb => b.accepts_eq (h c hc opener hopener kind hkind b hb) m
  apply List.find?_congr
  intro b hb
  rw [haccepts matching b hb, haccepts matching' b hb]

/-- Where the arms can be told apart by code alone, both ways to match delimiters agree about the
page. -/
theorem Database.TellsArms.agrees (h : db.TellsArms page) (matching matching' : Matching) :
    Database.Agrees matching matching' page db db := by
  intro opener hopener
  cases hkind : db.kind? opener.code with
  | none => exact .unknown
  | some kind =>
    cases kind with
    | scope kind =>
      refine .scope ⟨rfl, fun c hc => ?_⟩
      rw [h.findBranch?_eq hc hopener hkind matching matching']
    | text continuation => exact .text continuation
    | route continuation => exact .route continuation
    | plain parameters => exact .alone trivial trivial
    | mark => exact .alone trivial trivial

namespace Sweep

open Ledger

variable {matching matching' : Matching} {s t : Sweep} {c : Command} {role : Role}
  {cs : List Command}

/-- What comes of a command depends on the way of matching through the delimiters of the innermost
scope alone. -/
theorem Step.of_matching (h : Step db matching s c role t)
    (hagree : ∀ kind ∈ s.scopes.head?.map (·.kind),
      kind.findBranch? matching c = kind.findBranch? matching' c) :
    Step db matching' s c role t := by
  have hpass : s.Passes matching c → s.Passes matching' c := by
    intro hpasses kind hkind
    obtain ⟨hterm, hbranch⟩ := hpasses kind hkind
    rw [hagree kind hkind] at hbranch
    exact ⟨hterm, hbranch⟩
  cases h with
  | merged habsorber hholds hjoin => exact .merged habsorber hholds hjoin
  | dropped habsorber hholds hjoin => exact .dropped habsorber hholds hjoin
  | companion habsorber hholds => exact .companion habsorber hholds
  | terminator hfree hscopes hterm => exact .terminator hfree hscopes hterm
  | @delimiter scope outer hfree hscopes hterm hbranch =>
    rw [hagree scope.kind (by simp [hscopes])] at hbranch
    exact .delimiter hfree hscopes hterm hbranch
  | padding hfree hpasses hpad => exact .padding hfree (hpass hpasses) hpad
  | opener hfree hpasses hpad hkind => exact .opener hfree (hpass hpasses) hpad hkind
  | text hfree hpasses hpad hkind => exact .text hfree (hpass hpasses) hpad hkind
  | route hfree hpasses hpad hkind => exact .route hfree (hpass hpasses) hpad hkind
  | leaf hfree hpasses hpad hkind => exact .leaf hfree (hpass hpasses) hpad hkind

/-- Both ways of matching give the commands of a page the same roles. The books say that every open
scope was opened by a command of the page. -/
theorem ledger_eq_of_tellsArms (h : db.TellsArms page) {read : Ledger}
    (hbooks : Books db matching s read) (hread : ∀ e ∈ read, e.1 ∈ page) (hcs : cs ⊆ page) :
    s.ledger db matching cs = s.ledger db matching' cs := by
  induction cs generalizing s read with
  | nil => rfl
  | cons c cs ih =>
    obtain ⟨hc, hcs⟩ := List.cons_subset.1 hcs
    have hstep := step_spec db matching s c
    have hagree : ∀ kind ∈ s.scopes.head?.map (·.kind),
        kind.findBranch? matching c = kind.findBranch? matching' c := by
      intro kind hkind
      obtain ⟨scope, hscope, rfl⟩ := Option.map_eq_some_iff.1 hkind
      obtain ⟨opener, hopener, hopens⟩ := (hbooks.scopes scope (List.mem_of_head? hscope)).mem
      exact h.findBranch?_eq hc (hread _ hopener) hopens matching matching'
    obtain ⟨hrole, hnext⟩ := (hstep.of_matching hagree).eq
    have hread' : ∀ e ∈ read ++ [(c, s.role db matching c)], e.1 ∈ page :=
      List.forall_mem_append.2 ⟨hread, by simpa using hc⟩
    rw [ledger, ledger, ih (hstep.books hbooks) hread' hcs, ← hrole, ← hnext]

/-- A step keeps the links of the arena. -/
theorem Step.keeps (h : Step db matching s c role t) : s.arena.Keeps t.arena := by
  cases h with
  | merged => exact .amend _ _ fun _ => ⟨rfl, rfl, rfl⟩
  | companion => exact .amend _ _ fun _ => ⟨rfl, rfl, rfl⟩
  | dropped | terminator | padding => exact .refl _
  | delimiter | opener | text | route | leaf => exact .extend _ _ c

/-- The sweep of a page takes no link of the tree away. -/
theorem keeps_run (s : Sweep) (cs : List Command) :
    s.arena.Keeps (s.run db matching cs).arena := by
  induction cs generalizing s with
  | nil => exact .refl _
  | cons c cs ih => exact (step_spec db matching s c).keeps.trans (ih _)

/-- The arm that a delimiter starts stays below the node of its scope. -/
theorem parentOf?_of_delimiter {arm scope : Nat}
    (h : (c, .delimiter arm scope) ∈ s.ledger db matching cs) :
    (s.run db matching cs).arena.parentOf? arm = some scope := by
  induction cs generalizing s with
  | nil => exact absurd h List.not_mem_nil
  | cons d cs ih =>
    rw [ledger] at h
    rcases List.mem_cons.1 h with heq | h
    · obtain ⟨rfl, hrole⟩ := Prod.mk.inj heq
      have hstep := step_spec db matching s c
      rw [← hrole] at hstep
      refine (keeps_run _ cs).parentOf? ?_
      generalize s.step db matching c = t at hstep ⊢
      cases hstep with
      | delimiter => exact (Arena.parentOf?_extend ..).trans (if_pos rfl)
    · exact ih h

end Sweep

open Sweep

/-- No two commands of a page have one node. -/
theorem Ledger.index_eq_of_node? {ledger : Ledger} {arena : Arena} (h : ledger.Describes db arena)
    {i j : Nat} {e e' : Command × Role} {id : Nat} (he : ledger[i]? = some e)
    (he' : ledger[j]? = some e') (hnode : e.2.node? = some id) (hnode' : e'.2.node? = some id) :
    i = j := by
  have hnodup : ledger.nodes.Nodup := by
    rw [h.nodes]
    exact List.nodup_range' ..
  have hdistinct := List.pairwise_iff_getElem.1 (List.pairwise_filterMap.1 hnodup)
  obtain ⟨hi, rfl⟩ := List.getElem?_eq_some_iff.1 he
  obtain ⟨hj, rfl⟩ := List.getElem?_eq_some_iff.1 he'
  rcases Nat.lt_trichotomy i j with hlt | heq | hlt
  · exact absurd rfl (hdistinct i j hi hj hlt id hnode id hnode')
  · exact heq
  · exact absurd rfl (hdistinct j i hj hi hlt id hnode' id hnode)

/-- Both ways of matching parse a page alike, down to the log, if every command with the code of a
delimiter has the parameter that tells arms apart. They give its commands the same roles, and in
either way each delimiter starts an arm of its own under its scope, whatever arms there are
already. -/
theorem parsePageWithin_matching (h : db.TellsArms page) (room : Nat) (diagnostics : Diagnostics)
    (log : Array LogRecord) :
    let parse (matching : Matching) := parsePageWithin room db matching diagnostics log page
    parse .code = parse .parameter ∧ pageLedger db .code page = pageLedger db .parameter page ∧
      ∀ (matching : Matching) (tree : Tree), (parse matching).outcome = .ok tree →
        ∀ (i j : Nat) (c d : Command) (arm arm' scope scope' : Nat),
          (pageLedger db matching page)[i]? = some (c, .delimiter arm scope) →
          (pageLedger db matching page)[j]? = some (d, .delimiter arm' scope') →
          tree.arena.parentOf? arm = some scope ∧ (i ≠ j → arm ≠ arm') := by
  intro parse
  refine ⟨?_, ?_, ?_⟩
  · exact parsePageWithin_eq_of_agrees (h.agrees .code .parameter) room diagnostics log
  · exact ledger_eq_of_tellsArms h (books_start db .code (.empty true) #[]) (by simp)
      (List.Subset.refl page)
  · intro matching tree htree i j c d arm arm' scope scope' hi hj
    have hbooks := books_pageEnd db matching page
    have houtcome := (outcome_of_peak_le (peak_le_of_ok htree)).symm.trans htree
    obtain ⟨-, rfl⟩ := outcome_eq_ok_iff.1 houtcome
    constructor
    · exact parentOf?_of_delimiter (List.mem_of_getElem? hi)
    · intro hne heq
      subst heq
      exact hne (Ledger.index_eq_of_node? hbooks.describes hi hj rfl rfl)

/-- Two arms of one code and with the same value of the parameter that tells arms apart. -/
theorem matching_sample :
    let db : Database := ⟨.xp, .empty, ⟨[(1, ⟨.str "Choices", .scope ⟨[],
      [⟨"When", .int 2, ⟨0, .isTrue⟩, some 0⟩, ⟨"Cancel", .int 2, ⟨0, .isTrue⟩, none⟩],
      ⟨.int 3, "End"⟩, false⟩⟩)]⟩⟩
    let command (code : Code) (h : code.InRange) : Command := ⟨code, [.int 7], .int 0, h⟩
    let page := [command 1 (by decide), command 2 (by decide), command 2 (by decide),
      command 3 (by decide)]
    let parse (matching : Matching) := parsePageWithin 1 db matching (.empty true) #[] page
    db.TellsArms page ∧ parse .code = parse .parameter ∧
      ∃ (tree : Tree) (arm arm' : Nat), (parse .parameter).outcome = .ok tree ∧
        tree.arena.parentOf? arm = some 1 ∧ tree.arena.parentOf? arm' = some 1 ∧ arm ≠ arm' := by
  intro db command page parse
  have htells : db.TellsArms page := by
    have hlengths : ∀ c ∈ page, c.parameters.length = 1 := by decide
    intro c hc opener hopener kind hkind b hb _ i hi
    have hlength := hlengths c hc
    have hcode : opener.code ∈ ([1, 2, 2, 3] : List Code) := List.mem_map_of_mem hopener
    simp only [List.mem_cons, List.not_mem_nil, or_false] at hcode
    rcases hcode with hcode | hcode | hcode | hcode
    · rw [hcode] at hkind
      cases hkind
      rcases List.mem_cons.1 hb with rfl | hb
      · cases hi
        omega
      · rw [List.mem_singleton.1 hb] at hi
        cases hi
    all_goals
      rw [hcode] at hkind
      cases hkind
  obtain ⟨hparse, -, harms⟩ := parsePageWithin_matching htells 1 (.empty true) #[]
  have htree : ∃ tree, (parse .parameter).outcome = .ok tree := ⟨_, rfl⟩
  obtain ⟨tree, htree⟩ := htree
  have hledger : pageLedger db .parameter page =
      page.zip [.opener 1, .delimiter 2 1, .delimiter 3 1, .terminator 1] := rfl
  have harm := harms .parameter tree htree
  rw [hledger] at harm
  have hfirst := harm 1 2 _ _ 2 3 1 1 rfl rfl
  have hsecond := harm 2 1 _ _ 3 2 1 1 rfl rfl
  exact ⟨htells, hparse, tree, 2, 3, htree, hfirst.1, hsecond.1, hfirst.2 (by decide)⟩

end PageOutline
