import PageOutline.Proofs.Placing.Yields

/-!
# Blocks that are ahead

If what is ahead in the page begins with an item that fits, the parser reads just this item, so a
command owns no more than one block of the page. Nothing else can come of it but that scopes nest
too deep. The scope around an item is read on after it.
-/

namespace PageOutline

/-- A run that is ahead, with nothing after it that belongs to it, is the run that is taken. -/
theorem Cursor.takeRun_of_rest {cursor : Cursor} {slot : CodeSlot} {run rest : List Command}
    (h : cursor.rest = run ++ rest) (hrun : ∀ c ∈ run, slot.holds c.code = true)
    (hrest : ∀ c ∈ rest.head?, slot.holds c.code = false) :
    cursor.takeRun slot = (run, ⟨rest, cursor.position + run.length⟩) := by
  have hstop : rest.takeWhile (slot.holds ·.code) = [] ∧
      rest.dropWhile (slot.holds ·.code) = rest := by
    cases rest with
    | nil => exact ⟨rfl, rfl⟩
    | cons c rest =>
      have hnot : ¬slot.holds c.code = true := by simp [hrest c rfl]
      exact ⟨List.takeWhile_cons_of_neg hnot, List.dropWhile_cons_of_neg hnot⟩
  rw [takeRun, h, List.takeWhile_append_of_pos hrun, List.dropWhile_append_of_pos hrun, hstop.1,
    hstop.2, List.append_nil]

namespace Forest

variable {db : Database} {matching : Matching}

/-- Whether an item is what its command comes to wherever the item is ahead and fits. -/
structure ReadWhole (db : Database) (matching : Matching) (c : Command) (f : Forest .body) :
    Prop where
  head : ∃ taken, f.flatten = c :: taken
  passes : ∀ {around? : Option ScopeKind} {after : Option Command},
    f.Fits db matching around? after → ∀ kind ∈ around?, kind.Passes matching c
  comesTo : ∀ {length room : Nat} {cursor : Cursor} {rest : List Command}
    {around? : Option ScopeKind}, c :: cursor.rest = f.flatten ++ rest →
    cursor.rest.length ≤ length → f.depth ≤ room → f.Fits db matching around? rest.head? →
    ∃ issues after, after.rest = rest ∧
      ComesTo db matching length room cursor c ⟨f, .nil, issues, after, .ok ()⟩

/-- What reading a scope on comes to where a forest is ahead that fits. A body is put before what
the scope comes to after it; a sequence of arms with the terminator after it is all that is left of
the scope. -/
def Filled (db : Database) (matching : Matching) : {layer : Layer} → Forest layer → Prop
  | .body, f =>
    ∀ (length room : Nat) (kind : ScopeKind) (opener : Code) (position : Int) (cursor : Cursor)
      (rest : List Command), cursor.rest = f.flatten ++ rest → cursor.rest.length ≤ length →
      f.depth ≤ room → f.Fits db matching (some kind) rest.head? →
      ∃ length' issues after, after.rest = rest ∧ rest.length ≤ length' ∧
        ∀ z, Fills db matching length' room kind opener position after z →
          Fills db matching length room kind opener position cursor
            (Yield.andThen ⟨f, .nil, issues, after, .ok ()⟩ z)
  | .arms, f =>
    ∀ (length room : Nat) (kind : ScopeKind) (opener : Code) (position : Int) (cursor : Cursor)
      (terminator : Command) (rest : List Command),
      cursor.rest = f.flatten ++ terminator :: rest → cursor.rest.length ≤ length →
      f.depth ≤ room → f.Fits db matching (some kind) (some terminator) →
      kind.terminator.code.holds terminator.code = true →
      ∃ issues after, after.rest = rest ∧
        Fills db matching length room kind opener position cursor ⟨.nil, f, issues, after, .ok ()⟩

variable {c : Command}

/-- Padding makes no node, wherever it stands. -/
theorem readWhole_padding (c : Command) : ReadWhole db matching c (.padding c .nil) where
  head := ⟨[], rfl⟩
  passes := fun h => h.2.1
  comesTo := by
    intro length room cursor rest around? hrest _ _ hfits
    exact ⟨_, cursor, (List.cons.inj hrest).2, comesTo_padding hfits.1⟩

/-- A command that stands alone is a leaf, wherever it stands. -/
theorem readWhole_leaf (c : Command) : ReadWhole db matching c (.leaf c .nil) where
  head := ⟨[], rfl⟩
  passes := fun h => h.2.1
  comesTo := by
    intro length room cursor rest around? hrest _ _ hfits
    exact ⟨_, cursor, (List.cons.inj hrest).2, comesTo_leaf hfits.1 hfits.2.2.1⟩

/-- What is ahead of a text command is read as its lines. -/
theorem readWhole_text (c : Command) (lines : List Command) :
    ReadWhole db matching c (.text c lines .nil) where
  head := ⟨_, rfl⟩
  passes := fun h => h.2.1
  comesTo := by
    intro length room cursor rest around? hrest _ _ hfits
    obtain ⟨hpad, -, ⟨continuation, hkind, hlines, hnot⟩, -⟩ := hfits
    have hparts : cursor.rest = lines ++ rest := by simpa [flatten] using hrest
    have hrun := Cursor.takeRun_of_rest hparts hlines hnot
    have hcomes : ComesTo db matching length room cursor c
        ⟨.text c (cursor.takeRun continuation).1 .nil, .nil, _, (cursor.takeRun continuation).2,
          .ok ()⟩ := comesTo_text hpad hkind
    rw [hrun] at hcomes
    exact ⟨_, _, rfl, hcomes⟩

/-- What is ahead of a route is read as its entries. -/
theorem readWhole_route (c : Command) (entries : List Command) :
    ReadWhole db matching c (.route c entries .nil) where
  head := ⟨_, rfl⟩
  passes := fun h => h.2.1
  comesTo := by
    intro length room cursor rest around? hrest _ _ hfits
    obtain ⟨hpad, -, ⟨continuation, hkind, hentries, hnot⟩, -⟩ := hfits
    have hparts : cursor.rest = entries ++ rest := by simpa [flatten] using hrest
    have hrun := Cursor.takeRun_of_rest hparts hentries hnot
    have hcomes : ComesTo db matching length room cursor c
        ⟨.route c (cursor.takeRun continuation).1 .nil, .nil, _, (cursor.takeRun continuation).2,
          .ok ()⟩ := comesTo_route hpad hkind
    rw [hrun] at hcomes
    exact ⟨_, _, rfl, hcomes⟩

/-- What is ahead of an opening command is read as its scope: first the body, then the arms. -/
theorem readWhole_scope (c terminator : Command) {body : Forest .body} {arms : Forest .arms}
    (ihBody : body.Filled db matching) (ihArms : arms.Filled db matching) :
    ReadWhole db matching c (.scope c body arms terminator .nil) where
  head := ⟨_, rfl⟩
  passes := fun h => h.2.1
  comesTo := by
    intro length room cursor rest around? hrest hlength hdepth hfits
    obtain ⟨hpad, -, ⟨kind, hkind, hbody, harms, hterm⟩, -⟩ := hfits
    have hflat : cursor.rest = body.flatten ++ (arms.flatten ++ terminator :: rest) := by
      simpa [flatten] using hrest
    simp only [depth, Nat.max_zero] at hdepth
    obtain ⟨room, rfl⟩ : ∃ r, room = r + 1 := Nat.exists_eq_succ_of_ne_zero (by omega)
    have hroom : max body.depth arms.depth ≤ room := by omega
    have hbody' := hbody
    rw [← List.head?_cons (a := terminator) (l := rest), ← head?_flatten_append] at hbody'
    obtain ⟨length', issues, after, hafter, hlater, hfill⟩ := ihBody length room kind c.code
      cursor.position cursor (arms.flatten ++ terminator :: rest) hflat hlength (by omega) hbody'
    rw [← hafter] at hlater
    obtain ⟨issues', after', hafter', hfills⟩ :=
      ihArms length' room kind c.code cursor.position after
      terminator rest hafter hlater (by omega) harms hterm
    have hscope := hfill _ hfills
    rw [Yield.andThen, append_nil] at hscope
    refine ⟨_, after', hafter', comesTo_scope terminator hpad hkind hscope ?_⟩
    refine .closed rfl ⟨?_, hbody, harms, hterm, hroom⟩
    rw [hafter', hflat]

/-- Where nothing is ahead of a body or of the arms reading goes on with what comes next. -/
theorem filled_nil {layer : Layer} : (nil : Forest layer).Filled db matching := by
  cases layer with
  | body =>
    intro length room kind opener position cursor rest hrest hlength _ _
    rw [hrest] at hlength
    exact ⟨length, [], cursor, hrest, hlength, fun _ hz => hz⟩
  | arms =>
    intro length room kind opener position cursor terminator rest hrest hlength _ _ hterm
    obtain ⟨ahead, index⟩ := cursor
    cases hrest
    obtain ⟨length, rfl⟩ := Nat.exists_eq_succ_of_ne_zero (Nat.ne_of_gt (Nat.zero_lt_of_lt hlength))
    exact ⟨[], ⟨rest, index + 1⟩, rfl, fills_terminator hterm⟩

/-- A body that begins with an item is read by reading the item first. -/
theorem ReadWhole.filled_append {f g : Forest .body} (hf : f.ReadWhole db matching c)
    (hg : g.Filled db matching) : (f.append g).Filled db matching := by
  intro length room kind opener position cursor rest hrest hlength hdepth hfits
  rw [flatten_append, List.append_assoc] at hrest
  rw [depth_append] at hdepth
  obtain ⟨hfirst, hothers⟩ := fits_append.1 hfits
  obtain ⟨taken, htaken⟩ := hf.head
  obtain ⟨ahead, index⟩ := cursor
  have hahead : ahead = c :: (taken ++ (g.flatten ++ rest)) := by
    rw [show ahead = _ from hrest, htaken]
    rfl
  subst hahead
  obtain ⟨length, rfl⟩ := Nat.exists_eq_succ_of_ne_zero (Nat.ne_of_gt (Nat.zero_lt_of_lt hlength))
  have hshorter : (taken ++ (g.flatten ++ rest)).length ≤ length := Nat.le_of_succ_le_succ hlength
  rw [← head?_flatten_append] at hfirst
  obtain ⟨issues, after, hafter, hcomes⟩ : ∃ issues after, after.rest = g.flatten ++ rest ∧
      ComesTo db matching length room ⟨taken ++ (g.flatten ++ rest), index + 1⟩ c
        ⟨f, .nil, issues, after, .ok ()⟩ :=
    hf.comesTo hrest hshorter (by omega) hfirst
  have hlater : after.rest.length ≤ length := by
    rw [hafter]
    rw [List.length_append] at hshorter
    omega
  obtain ⟨length', issues', after', hafter', hlength', hfill⟩ :=
    hg length room kind opener position after rest hafter hlater (by omega) hothers
  refine ⟨length', issues ++ issues', after', hafter', hlength', fun z hz => ?_⟩
  have hitem := Fills.item (hf.passes hfirst kind rfl) hcomes rfl (hfill z hz)
  simpa only [Yield.andThen, append_assoc, List.append_assoc] using hitem

/-- A delimiter is read with its body, and then the arms that follow. -/
theorem filled_arm (delimiter : Command) {body : Forest .body} {arms : Forest .arms}
    (ihBody : body.Filled db matching) (ih : arms.Filled db matching) :
    (arm delimiter body arms).Filled db matching := by
  intro length room kind opener position cursor terminator rest hrest hlength hdepth hfits hterm
  obtain ⟨⟨_, hkind, hnot, hbranch⟩, hbody, harms⟩ := hfits
  cases hkind
  rw [depth] at hdepth
  obtain ⟨ahead, index⟩ := cursor
  have hahead : ahead = delimiter :: (body.flatten ++ (arms.flatten ++ terminator :: rest)) := by
    simpa [flatten] using hrest
  subst hahead
  obtain ⟨length, rfl⟩ := Nat.exists_eq_succ_of_ne_zero (Nat.ne_of_gt (Nat.zero_lt_of_lt hlength))
  rw [← List.head?_cons (a := terminator) (l := rest), ← head?_flatten_append] at hbody
  obtain ⟨length', issues, after, hafter, hlater, hfill⟩ := ihBody length room kind opener position
    ⟨_, index + 1⟩ (arms.flatten ++ terminator :: rest) rfl (Nat.le_of_succ_le_succ hlength)
    (by omega) hbody
  rw [← hafter] at hlater
  obtain ⟨issues', after', hafter', hfills⟩ := ih length' room kind opener position after terminator
    rest hafter hlater (by omega) harms hterm
  have hread := (hfill _ hfills).delimiter hnot hbranch
  rw [Yield.andThen, append_nil] at hread
  exact ⟨_, after', hafter', hread⟩

/-- Whatever fits is read whole where it is ahead. The induction is on the forest; what comes after
it in the page and how a scope around it ends vary with it. -/
theorem filled {layer : Layer} (f : Forest layer) : f.Filled db matching := by
  induction f with
  | nil => exact filled_nil
  | padding c rest ih => exact (readWhole_padding c).filled_append ih
  | leaf c rest ih => exact (readWhole_leaf c).filled_append ih
  | text c lines rest ih => exact (readWhole_text c lines).filled_append ih
  | route c entries rest ih => exact (readWhole_route c entries).filled_append ih
  | scope c body arms terminator rest ihBody ihArms ih =>
    exact (readWhole_scope c terminator ihBody ihArms).filled_append ih
  | arm delimiter body rest ihBody ih => exact filled_arm delimiter ihBody ih

/-- An item is what its command comes to. -/
theorem IsItem.readWhole {f : Forest .body} (h : f.IsItem) :
    ∃ c, f.ReadWhole db matching c := by
  cases h with
  | leaf c => exact ⟨c, readWhole_leaf c⟩
  | text c lines => exact ⟨c, readWhole_text c lines⟩
  | route c entries => exact ⟨c, readWhole_route c entries⟩
  | scope c body arms terminator =>
    exact ⟨c, readWhole_scope c terminator body.filled arms.filled⟩

end Forest

/-- A command with a block of the page that it owns ahead of it is placed with just this block. -/
theorem ParseState.parseCommand_of_owned {db : Database} {matching : Matching} {room parent : Nat}
    {s : ParseState} {c : Command} {f : Forest .body} {rest : List Command} (hitem : f.IsItem)
    (howned : f.Owned db matching room c s.cursor.rest rest) (hpad : c.isSentinel = false)
    (hparent : parent < s.arena.size) :
    let r := s.parseCommand db matching room parent c
    r.1 = .ok (some s.arena.size) ∧ r.2.arena = s.arena.graft parent f ∧
      r.2.cursor = ⟨rest, s.cursor.position + f.flatten.length - 1⟩ := by
  obtain ⟨⟨taken, hflat, hahead⟩, hfits, hdepth⟩ := howned
  obtain ⟨c', hwhole⟩ := hitem.readWhole
  obtain ⟨taken', hhead⟩ := hwhole.head
  cases (List.cons.inj (hhead.symm.trans hflat)).1
  obtain ⟨issues, ⟨left, index⟩, rfl, hcomes⟩ := hwhole.comesTo
    (by rw [hflat, ← hahead]; rfl) (Nat.le_refl _) hdepth (hfits none (by simp))
  have hindex : index = s.cursor.position + f.flatten.length - 1 := by
    have hlast : index + left.length = s.cursor.position + s.cursor.rest.length := hcomes.last
    have hlength : taken.length + left.length = s.cursor.rest.length := by simp [← hahead]
    rw [hflat, List.length_cons]
    omega
  rw [parseCommand_eq_settle hpad hparent, hcomes.run s parent rfl hparent, ← hindex]
  exact ⟨rfl, by simp only [Yield.onto, Arena.graft_nil], rfl⟩

end PageOutline
