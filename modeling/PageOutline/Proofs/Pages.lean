import Mathlib.Algebra.Ring.Nat
import PageOutline.Page.Outliner
import PageOutline.Proofs.Issues
import PageOutline.Proofs.Lockstep

/-!
# Pages are independent

Pages are parsed one after the other up to the first that fails. Each gives what it gives by itself:
the same tree or error, and the same issues, whether they go to a collector of its own or to one
that has the issues of the pages before it. Nothing but the log is handed on from one use of an
outliner to the next, and no parse looks at it.
-/

namespace PageOutline

/-! ## Working off a list -/

section UpToFailure

variable {ε α β : Type}

/-- A list is worked off up to the first item that fails: `tried` are the items that were worked on,
and what has come of it are their values or the error. -/
inductive UpToFailure (f : α → Except ε β) :
    List α → (tried : List α) → Except ε (List β) → Prop
  | nil : UpToFailure f [] [] (.ok [])
  | failed {x : α} {xs : List α} {e : ε} (hx : f x = .error e) :
      UpToFailure f (x :: xs) [x] (.error e)
  | cons {x : α} {y : β} {xs tried : List α} {r : Except ε (List β)} (hx : f x = .ok y)
      (hxs : UpToFailure f xs tried r) :
      UpToFailure f (x :: xs) (x :: tried) (r.map (y :: ·))

/-- An item that fails where all items before it succeed. -/
structure FirstFailure (f : α → Except ε β) (xs before : List α) (x : α) (e : ε) : Prop where
  split : ∃ after, xs = before ++ x :: after
  before : ∀ y ∈ before, ∃ b, f y = .ok b
  fails : f x = .error e

variable {f : α → Except ε β} {xs tried : List α} {r : Except ε (List β)}

/-- A list comes to values if each of its items does. -/
theorem UpToFailure.exists_ok_iff (h : UpToFailure f xs tried r) :
    (∃ ys, r = .ok ys) ↔ ∀ x ∈ xs, ∃ y, f x = .ok y := by
  induction h with
  | nil => simp
  | failed hx => simp [hx]
  | @cons x y xs tried r hx hxs ih =>
    rw [List.forall_mem_cons, ← ih]
    cases r <;> simp [Except.map, hx]

/-- Where no item fails, all are worked on. -/
theorem UpToFailure.of_ok {ys : List β} (h : UpToFailure f xs tried r) (hr : r = .ok ys) :
    tried = xs ∧ xs.map f = ys.map .ok := by
  induction h generalizing ys with
  | nil =>
    cases hr
    exact ⟨rfl, rfl⟩
  | failed hx => cases hr
  | @cons x y xs tried r hx hxs ih =>
    cases r with
    | error e => cases hr
    | ok ys =>
      cases hr
      obtain ⟨htried, hvalues⟩ := ih rfl
      rw [htried, List.map_cons, List.map_cons, hx, hvalues]
      exact ⟨rfl, rfl⟩

/-- Where an item fails, the first that does gives the error and is worked on last. -/
theorem UpToFailure.of_error {e : ε} (h : UpToFailure f xs tried r) (hr : r = .error e) :
    ∃ before x, tried = before ++ [x] ∧ FirstFailure f xs before x e := by
  induction h with
  | nil => cases hr
  | @failed x xs e' hx =>
    cases hr
    exact ⟨[], x, rfl, ⟨xs, rfl⟩, by simp, hx⟩
  | @cons x y xs tried r hx hxs ih =>
    cases r with
    | ok ys => cases hr
    | error e' =>
      cases hr
      obtain ⟨before, z, htried, ⟨after, hsplit⟩, hbefore, hfails⟩ := ih rfl
      refine ⟨x :: before, z, by rw [htried]; rfl, ⟨after, by rw [hsplit]; rfl⟩, ?_, hfails⟩
      exact List.forall_mem_cons.2 ⟨⟨y, hx⟩, hbefore⟩

end UpToFailure

/-! ## One collector for several pages -/

/-- A collector that holds what another holds and after it what some further ones hold: their issues
in order, and of each unknown code as many as they count together. -/
structure Diagnostics.Gathers (ds base : Diagnostics) (parts : List Diagnostics) : Prop where
  entries : ds.entries.toList = base.entries.toList ++ parts.flatMap (·.entries.toList)
  counts : ∀ code,
    ds.unknownCount code = base.unknownCount code + (parts.map (·.unknownCount code)).sum
  codes : ∀ code, ds.unknownCodes.contains code =
    (base.unknownCodes.contains code || parts.any (·.unknownCodes.contains code))
  logsUnknown : ds.logsUnknown = base.logsUnknown

/-- A collector gathers nothing more than it holds. -/
theorem Diagnostics.Gathers.nil (ds : Diagnostics) : ds.Gathers ds [] := by
  constructor <;> simp

/-- What is gathered in two rounds is gathered in one. -/
theorem Diagnostics.Gathers.append {ds ds' base : Diagnostics} {parts parts' : List Diagnostics}
    (h : ds.Gathers base parts) (h' : ds'.Gathers ds parts') :
    ds'.Gathers base (parts ++ parts') where
  entries := by rw [h'.entries, h.entries, List.flatMap_append, List.append_assoc]
  counts code := by
    rw [h'.counts, h.counts, List.map_append, List.sum_append, Nat.add_assoc]
  codes code := by rw [h'.codes, h.codes, List.any_append, Bool.or_assoc]
  logsUnknown := h'.logsUnknown.trans h.logsUnknown

namespace Journal

variable (j : Journal) (issues : List Diagnostic)

/-- The collector of a journal gets the issues one by one. -/
theorem diagnostics_addAll :
    (j.addAll issues).diagnostics = issues.foldl Diagnostics.add j.diagnostics := by
  induction issues generalizing j with
  | nil => rfl
  | cons d issues ih => exact ih (j.add d)

/-- Issues do not change whether unknown codes are logged. -/
theorem logsUnknown_addAll :
    (j.addAll issues).diagnostics.logsUnknown = j.diagnostics.logsUnknown := by
  induction issues generalizing j with
  | nil => rfl
  | cons d issues ih => exact ih (j.add d)

/-- The count of a code goes up by the issues in which it is unknown. -/
theorem unknownCount_addAll (code : Code) :
    (j.addAll issues).diagnostics.unknownCount code =
      j.diagnostics.unknownCount code + issues.countP (·.isUnknown code) := by
  rw [Diagnostics.unknownCount, find?_unknownCodes_addAll]
  split
  next hzero => rw [hzero]; rfl
  next => rfl

/-- The unknown codes are those of before and those of the issues. -/
theorem contains_unknownCodes_addAll (code : Code) :
    (j.addAll issues).diagnostics.unknownCodes.contains code =
      (j.diagnostics.unknownCodes.contains code ||
        decide (issues.countP (·.isUnknown code) ≠ 0)) := by
  rw [Table.contains, find?_unknownCodes_addAll]
  split
  next hzero => simp [hzero, Table.contains]
  next hne => simp [hne]

/-- Issues that are added to a collector are added as they are found with a fresh one. -/
theorem gathers_addAll (logsUnknown : Bool) (log : Array LogRecord) :
    (j.addAll issues).diagnostics.Gathers j.diagnostics
      [(addAll ⟨.empty logsUnknown, log⟩ issues).diagnostics] where
  entries := by
    simp only [List.flatMap_cons, List.flatMap_nil, List.append_nil, entries_addAll]
    rfl
  counts code := by
    simp only [List.map_cons, List.map_nil, List.sum_cons, List.sum_nil, unknownCount_addAll]
    simp [Diagnostics.unknownCount, Diagnostics.empty, Table.find?, Table.empty]
  codes code := by
    simp only [List.any_cons, List.any_nil, Bool.or_false, contains_unknownCodes_addAll]
    rfl
  logsUnknown := logsUnknown_addAll j issues

end Journal

section Pages

variable (o : Outliner)

/-- A page gives what it gives by itself, whatever the collector and the log have before. -/
theorem parsePage_beside (diagnostics : Diagnostics) (log : Array LogRecord) (page : List Command) :
    let r := parsePage o.database o.matching diagnostics log page
    let alone := o.outline #[] page
    alone.outcome = r.outcome ∧ r.diagnostics.Gathers diagnostics [alone.diagnostics] := by
  have hpage := parsePageWithin_together (Database.Agrees.refl o.matching page o.database)
    maxNesting diagnostics (.empty o.logsUnknown) log #[]
  obtain ⟨houtcome, issues, hdiagnostics, halone⟩ := hpage
  refine ⟨houtcome.symm, ?_⟩
  dsimp only [parsePage, Outliner.outline]
  rw [hdiagnostics, halone]
  exact Journal.gathers_addAll ⟨diagnostics, log⟩ issues o.logsUnknown #[]

/-- A tree with its collector, or the reason why there is none. -/
def PageResult.paired (r : PageResult) : Except PageError (Tree × Diagnostics) :=
  r.outcome.map (·, r.diagnostics)

/-- There is a tree with a collector if there is a tree. -/
theorem PageResult.exists_paired_iff (r : PageResult) :
    (∃ result, r.paired = .ok result) ↔ ∃ tree, r.outcome = .ok tree := by
  unfold paired
  cases r.outcome <;> simp [Except.map]

/-- The reason why there is no tree is the error of the page. -/
theorem PageResult.paired_eq_error_iff (r : PageResult) (e : PageError) :
    r.paired = .error e ↔ r.outcome = .error e := by
  unfold paired
  cases r.outcome <;> simp [Except.map]

/-- An outliner gives the same for a page, whatever the log has before. -/
theorem Outliner.paired_outline (log : Array LogRecord) (page : List Command) :
    (o.outline #[] page).paired = (o.outline log page).paired := by
  have hpage := parsePageWithin_together (Database.Agrees.refl o.matching page o.database)
    maxNesting (.empty o.logsUnknown) (.empty o.logsUnknown) #[] log
  obtain ⟨houtcome, issues, halone, hdiagnostics⟩ := hpage
  rw [Journal.diagnostics_addAll] at halone hdiagnostics
  dsimp only [PageResult.paired, Outliner.outline, parsePage]
  rw [houtcome, halone, hdiagnostics]

/-- Several pages with one collector are pages that are parsed by themselves. -/
theorem exists_upToFailure_parsePages (diagnostics : Diagnostics) (log : Array LogRecord)
    (pages : List (List Command)) :
    let r := parsePages o.database o.matching diagnostics log pages
    ∃ tried, UpToFailure (fun page => (o.outline #[] page).outcome) pages tried r.outcome ∧
      r.diagnostics.Gathers diagnostics
        (tried.map fun page => (o.outline #[] page).diagnostics) := by
  induction pages generalizing diagnostics log with
  | nil => exact ⟨[], .nil, .nil diagnostics⟩
  | cons page pages ih =>
    obtain ⟨houtcome, hgathers⟩ := parsePage_beside o diagnostics log page
    rw [parsePages]
    generalize parsePage o.database o.matching diagnostics log page = r at houtcome hgathers ⊢
    obtain ⟨e | tree, after, log'⟩ := r
    · exact ⟨[page], .failed houtcome, hgathers⟩
    · obtain ⟨tried, hpages, hgathers'⟩ := ih after log'
      exact ⟨page :: tried, .cons houtcome hpages, hgathers.append hgathers'⟩

/-- Several pages with a collector each are pages that are parsed by themselves. -/
theorem exists_upToFailure_outlineAll (log : Array LogRecord) (pages : List (List Command)) :
    ∃ tried, UpToFailure (fun page => (o.outline #[] page).paired) pages tried
      (o.outlineAll log pages).1 := by
  unfold Outliner.outlineAll
  induction pages generalizing log with
  | nil => exact ⟨[], .nil⟩
  | cons page pages ih =>
    have hpaired := o.paired_outline log page
    rw [show o.outline log page = parsePage o.database o.matching (.empty o.logsUnknown) log page
      from rfl] at hpaired
    rw [parsePagesApart]
    generalize parsePage o.database o.matching (.empty o.logsUnknown) log page = r at hpaired ⊢
    obtain ⟨e | tree, diagnostics, log'⟩ := r
    · exact ⟨[page], .failed hpaired⟩
    · obtain ⟨tried, hpages⟩ := ih log'
      exact ⟨page :: tried, .cons hpaired hpages⟩

/-- Pages are independent. With one collector for all, parsing succeeds when each page does by
itself, it gives their trees in order, and the collector then holds their issues one page after the
other; the first page that fails gives its error, and then the collector holds the issues of the
pages before it and its own. An outliner gives for each page what it gives for the page by itself,
whatever pages it was used for before and however these ended. -/
theorem pages_independent (pages : List (List Command)) :
    let alone := o.outline #[]
    (∀ (diagnostics : Diagnostics) (log : Array LogRecord),
      let r := parsePages o.database o.matching diagnostics log pages
      ((∃ trees, r.outcome = .ok trees) ↔ ∀ page ∈ pages, ∃ tree, (alone page).outcome = .ok tree) ∧
        (∀ trees, r.outcome = .ok trees →
          (pages.map fun page => (alone page).outcome) = trees.map .ok ∧
            r.diagnostics.Gathers diagnostics (pages.map fun page => (alone page).diagnostics)) ∧
        ∀ e, r.outcome = .error e →
          ∃ before page, FirstFailure (fun page => (alone page).outcome) pages before page e ∧
            r.diagnostics.Gathers diagnostics
              ((before ++ [page]).map fun page => (alone page).diagnostics)) ∧
      ∀ (earlier : List (List (List Command))) (log : Array LogRecord),
        let logged := earlier.foldl (fun log pages => (o.outlineAll log pages).2) log
        let r := (o.outlineAll logged pages).1
        ((∃ results, r = .ok results) ↔ ∀ page ∈ pages, ∃ tree, (alone page).outcome = .ok tree) ∧
          (∀ results, r = .ok results →
            (pages.map fun page => (alone page).paired) = results.map .ok) ∧
          ∀ e, r = .error e →
            ∃ before page, FirstFailure (fun page => (alone page).outcome) pages before page e := by
  intro alone
  refine ⟨?_, ?_⟩
  · intro diagnostics log r
    obtain ⟨tried, hpages, hgathers⟩ := exists_upToFailure_parsePages o diagnostics log pages
    refine ⟨hpages.exists_ok_iff, ?_, ?_⟩
    · intro trees htrees
      obtain ⟨htried, hvalues⟩ := hpages.of_ok htrees
      rw [htried] at hgathers
      exact ⟨hvalues, hgathers⟩
    · intro e he
      obtain ⟨before, page, htried, hfirst⟩ := hpages.of_error he
      rw [htried] at hgathers
      exact ⟨before, page, hfirst, hgathers⟩
  · intro earlier log logged r
    obtain ⟨tried, hpages⟩ := exists_upToFailure_outlineAll o logged pages
    refine ⟨?_, ?_, ?_⟩
    · simp only [r, hpages.exists_ok_iff, PageResult.exists_paired_iff, alone]
    · intro results hresults
      exact (hpages.of_ok hresults).2
    · intro e he
      obtain ⟨before, page, -, hsplit, hbefore, hfails⟩ := hpages.of_error he
      simp only [PageResult.exists_paired_iff] at hbefore
      exact ⟨before, page, hsplit, hbefore, (PageResult.paired_eq_error_iff _ e).1 hfails⟩

/-- A page with an unknown command, one that ends within its scope, and the first once more, which
is not reached; and the first page twice. -/
theorem pages_independent_sample :
    let o : Outliner := ⟨.sample, .code, true⟩
    let alone := o.outline #[]
    let page : List Command := [⟨9, [], .int 0, by decide⟩]
    let pages := [page, unclosedSample, page]
    let e : PageError := .unterminated 1 0 (.int 3)
    let r := parsePages .sample .code (.empty true) #[] pages
    let twice := parsePages .sample .code (.empty true) #[] [page, page]
    (r.outcome = .error e ∧ (o.outlineAll #[] pages).1 = .error e) ∧
      (∃ before last, FirstFailure (fun page => (alone page).outcome) pages before last e ∧
        r.diagnostics.Gathers (.empty true)
          ((before ++ [last]).map fun page => (alone page).diagnostics)) ∧
      (∃ before last, FirstFailure (fun page => (alone page).outcome) pages before last e) ∧
      (∃ trees, twice.outcome = .ok trees ∧
        ([page, page].map fun page => (alone page).outcome) = trees.map .ok ∧
        twice.diagnostics.Gathers (.empty true)
          ([page, page].map fun page => (alone page).diagnostics)) ∧
      ∃ results, (o.outlineAll #[] [page, page]).1 = .ok results ∧
        ([page, page].map fun page => (alone page).paired) = results.map .ok := by
  intro o alone page pages e r twice
  have hfails : r.outcome = .error e := rfl
  have hfails' : (o.outlineAll #[] pages).1 = .error e := rfl
  have hpage : ∃ tree, (alone page).outcome = .ok tree := ⟨_, rfl⟩
  have htwice : ∀ p ∈ [page, page], ∃ tree, (alone p).outcome = .ok tree := by
    simp only [List.forall_mem_cons, hpage]
    simp
  obtain ⟨hshared, hown⟩ := pages_independent o pages
  obtain ⟨hsharedTwice, hownTwice⟩ := pages_independent o [page, page]
  obtain ⟨hparses, htrees, -⟩ := hsharedTwice (.empty true) #[]
  obtain ⟨houtlines, hresults, -⟩ := hownTwice [] #[]
  obtain ⟨trees, hparsed⟩ := hparses.2 htwice
  obtain ⟨results, houtlined⟩ := houtlines.2 htwice
  exact ⟨⟨hfails, hfails'⟩, (hshared (.empty true) #[]).2.2 e hfails, (hown [] #[]).2.2 e hfails',
    ⟨trees, hparsed, htrees trees hparsed⟩, results, houtlined, hresults results houtlined⟩

end Pages

end PageOutline
