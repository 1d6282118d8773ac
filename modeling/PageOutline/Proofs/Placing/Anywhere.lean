import PageOutline.Proofs.Placing.Blocks

/-!
# Placing a command anywhere

A command can be placed under any node of any arena. It changes nothing of what was there but for a
new last child of that node, and below this child it makes the same nodes everywhere.
-/

namespace PageOutline

namespace Arena

/-- The second arena has more nodes than the first. All of them lie below the first new one, which
is the last child of `parent`; that it got this child is all that is changed of the older nodes. -/
structure GrowsUnder (a b : Arena) (parent : Nat) : Prop where
  size_lt : a.size < b.size
  older : ∀ i < a.size, b.nodes[i]? =
    a.nodes[i]?.map fun n => if i = parent then n.addChildren [a.size] else n
  first : b.parentOf? a.size = some parent
  below : ∀ i, a.size < i → i < b.size →
    Relation.TransGen (fun p c => b.parentOf? c = some p) a.size i

/-- The nodes that `b` has more than `a` are those that `b'` has more than `a'`, but for where their
ids begin and for the parent of the first. -/
structure GrowsAlike (a b a' b' : Arena) : Prop where
  first : b.nodes[a.size]?.map (fun n => { n.mapIds (· + a'.size) with parent? := none }) =
    b'.nodes[a'.size]?.map fun n => { n.mapIds (· + a.size) with parent? := none }
  others : ∀ j, 0 < j → b.nodes[a.size + j]?.map (·.mapIds (· + a'.size)) =
    b'.nodes[a'.size + j]?.map (·.mapIds (· + a.size))

/-- An item that is put under a node adds nodes below that node and changes nothing else. -/
theorem growsUnder_graft (a : Arena) (parent : Nat) {f : Forest .body} (hf : f.IsItem) :
    a.GrowsUnder (a.graft parent f) parent where
  size_lt := by
    rw [size_graft]
    exact Nat.lt_add_of_pos_right hf.count_pos
  older := by
    intro i hi
    rw [graft, getElem?_attach_of_lt hi, hf.roots_eq]
    simp only [eq_comm]
  first := by
    obtain ⟨n, others, hnodes⟩ := hf.nodes_eq a.size
    have hfirst := getElem?_attach_add a parent (f.roots a.size) (f.nodes parent a.size) 0
    rw [hnodes parent] at hfirst
    rw [graft, hnodes parent]
    exact parentOf?_of_some hfirst
  below := by
    intro i hlow hhigh
    rw [size_graft] at hhigh
    exact hf.transGen (a.holds_attach parent _ _) hlow hhigh

/-- An item adds the same nodes wherever it is put. -/
theorem growsAlike_graft (a a' : Arena) (parent parent' : Nat) {f : Forest .body} (hf : f.IsItem) :
    GrowsAlike a (a.graft parent f) a' (a'.graft parent' f) := by
  have hnew (b : Arena) (q j : Nat) : (b.graft q f).nodes[b.size + j]? = (f.nodes q b.size)[j]? :=
    getElem?_attach_add ..
  -- both blocks, shifted by the size of the other arena, are those of one numbering
  have hshift (next k : Nat) : Shifts (· + k) next (next + k) := fun j => Nat.add_right_comm ..
  obtain ⟨n, others, hn⟩ := hf.nodes_eq (a.size + a'.size)
  have hnodes := f.nodes_map parent (hshift a.size a'.size)
  have hnodes' := f.nodes_map parent' (hshift a'.size a.size)
  rw [hn] at hnodes
  rw [Nat.add_comm a'.size, hn] at hnodes'
  refine ⟨?_, fun j hj => ?_⟩
  · have hfirst := hnew a parent 0
    have hfirst' := hnew a' parent' 0
    have hhead := congrArg (·[0]?.map fun m : Node => { m with parent? := none }) hnodes
    have hhead' := congrArg (·[0]?.map fun m : Node => { m with parent? := none }) hnodes'
    simp only [List.getElem?_map, List.getElem?_cons_zero, Option.map_map, Option.map_some] at hhead
    simp only [List.getElem?_map, List.getElem?_cons_zero, Option.map_map,
      Option.map_some] at hhead'
    rw [Nat.add_zero] at hfirst hfirst'
    rw [hfirst, hfirst']
    exact hhead.symm.trans hhead'
  · obtain ⟨j, rfl⟩ := Nat.exists_eq_succ_of_ne_zero (Nat.ne_of_gt hj)
    rw [hnew, hnew, ← List.getElem?_map, ← List.getElem?_map, ← hnodes, ← hnodes']
    rfl

end Arena

/-- Padding is skipped wherever it stands. Any other command fails at an id that leads to no node,
and changes nothing then. Under a node of the arena it leaves the older nodes as they are but for
one new last child of that node, and all other new nodes lie below this child. This holds as well
where the page ends within a scope or nests too deep. If there is a block of the page that the
command owns, the call succeeds and moves past just this block. Otherwise the page ends within a
scope and the parser has moved past all of it, or scopes nest too deep. From the same place of the
page, under any node of any arena, the call ends in the same way and at the same place, has the same
issues and makes the same nodes. -/
theorem ParseState.parseCommand_growsUnder (db : Database) (matching : Matching) (room : Nat)
    (s : ParseState) (c : Command) :
    (c.isSentinel = true → ∀ parent : Int,
      s.parseCommand db matching room parent c = (.ok none, s)) ∧
    (c.isSentinel = false → ∀ parent : Int, s.arena.contains parent = false →
      s.parseCommand db matching room parent c = (.error (.nodeNotFound (.int parent)), s)) ∧
    (c.isSentinel = false → ∀ parent : Int, s.arena.contains parent = true →
      let r := s.parseCommand db matching room parent c
      s.arena.GrowsUnder r.2.arena parent.toNat ∧
      (∀ (f : Forest .body) (rest : List Command), f.IsItem →
        f.Owned db matching room c s.cursor.rest rest →
        r.1 = .ok (some s.arena.size) ∧ r.2.arena = s.arena.graft parent.toNat f ∧
          r.2.cursor = ⟨rest, s.cursor.position + f.flatten.length - 1⟩) ∧
      ((∃ (f : Forest .body) (rest : List Command), f.IsItem ∧
          f.Owned db matching room c s.cursor.rest rest) ∨
        (∃ opener position terminator,
          r.1 = .error (.unterminated opener position terminator) ∧
            r.2.cursor = ⟨[], s.cursor.position + s.cursor.rest.length⟩) ∨
        ∃ position, r.1 = .error (.nestingTooDeep position) ∧ room ≤ s.cursor.rest.length) ∧
      ∀ (s' : ParseState) (parent' : Int), s'.cursor = s.cursor →
        s'.arena.contains parent' = true →
        let r' := s'.parseCommand db matching room parent' c
        r'.1.map (fun _ => ()) = r.1.map (fun _ => ()) ∧ r'.2.cursor = r.2.cursor ∧
          (∃ issues, r.2.journal = s.journal.addAll issues ∧
            r'.2.journal = s'.journal.addAll issues) ∧
          s.arena.GrowsAlike r.2.arena s'.arena r'.2.arena) := by
  refine ⟨fun hpad parent => ?_, fun hpad parent hmissing => ?_, fun hpad parent hfound => ?_⟩
  · rw [parseCommand, place_padding hpad]
  · rw [parseCommand, place_of_not_contains db hpad hmissing]
  · obtain ⟨parent, rfl, hparent⟩ := Arena.exists_eq_of_contains hfound
    obtain ⟨y, hitem, hrun, hlast, hends⟩ := exists_yield db matching room s.cursor hpad
    rw [Int.toNat_natCast]
    refine ⟨?_, fun f rest hf howned => parseCommand_of_owned hf howned hpad hparent, ?_, ?_⟩
    all_goals rw [hrun s parent rfl hparent]
    · exact s.arena.growsUnder_graft parent hitem
    · rcases hends with ⟨-, howned⟩ | ⟨hresult, hrest⟩ | ⟨hresult, hdeep⟩
      · exact .inl ⟨y.body, y.after.rest, hitem, howned⟩
      · refine .inr (.inl ⟨_, _, _, by rw [hresult]; rfl, ?_⟩)
        have hposition : y.after.position = s.cursor.position + s.cursor.rest.length := by
          simp only [Cursor.last, hrest, List.length_nil] at hlast
          omega
        show (⟨y.after.rest, y.after.position⟩ : Cursor) = _
        rw [hrest, hposition]
      · exact .inr (.inr ⟨_, by rw [hresult]; rfl, hdeep⟩)
    · intro s' parent' hcursor hfound'
      obtain ⟨parent', rfl, hparent'⟩ := Arena.exists_eq_of_contains hfound'
      rw [hrun s' parent' hcursor hparent']
      refine ⟨?_, rfl, ⟨y.issues, rfl, rfl⟩, s.arena.growsAlike_graft s'.arena parent parent' hitem⟩
      cases y.result <;> rfl

/-- A command of the sample of a forest. -/
def Command.sample (index : Nat) : Command := Forest.sample.flatten.getD index .sentinel

/-- A parse that has just pulled a command of this sample, with so many of those after it still to
come. -/
def ParseState.sample (arena : Arena) (index length : Nat) : ParseState :=
  ⟨arena, ⟨(Forest.sample.flatten.drop (index + 1)).take length, index⟩, .empty true, #[]⟩

/-- An arena with a detached node and a tree of two nodes. -/
def Arena.sample : Arena := .history [.newNode .sentinel, .plant, .append 1 .sentinel]

/-- A scope under the root of one tree and under a node of another, the same scope where the page
ends within it, the text in its body with the line after it, an id that leads to no node, and
padding. -/
theorem ParseState.parseCommand_growsUnder_sample :
    let s := ParseState.sample Tree.empty.arena 0 8
    let s' := ParseState.sample .sample 0 8
    let unclosed := ParseState.sample .sample 0 4
    let inBody := ParseState.sample .sample 1 7
    let text : Forest .body := .text (.sample 1) [.sample 2] .nil
    let r := s.parseCommand .sample .code 1 0 (.sample 0)
    let r' := s'.parseCommand .sample .code 1 2 (.sample 0)
    let r'' := unclosed.parseCommand .sample .code 1 2 (.sample 0)
    r.1 = .ok (some 1) ∧ r.2.arena.size = 5 ∧ s.arena.GrowsUnder r.2.arena 0 ∧
      r'.1 = .ok (some 3) ∧ s.arena.GrowsAlike r.2.arena s'.arena r'.2.arena ∧
      r''.1 = .error (.unterminated 1 0 (.int 3)) ∧ unclosed.arena.GrowsUnder r''.2.arena 2 ∧
      (inBody.parseCommand .sample .code 0 2 (.sample 1)).2.arena = inBody.arena.graft 2 text ∧
      s.parseCommand .sample .code 1 7 (.sample 0) = (.error (.nodeNotFound (.int 7)), s) ∧
      s.parseCommand .sample .code 1 7 .sentinel = (.ok none, s) := by
  have hpad : (Command.sample 0).isSentinel = false := rfl
  obtain ⟨-, hmissing, hvalid⟩ := ParseState.parseCommand_growsUnder .sample .code 1
    (.sample Tree.empty.arena 0 8) (.sample 0)
  obtain ⟨hgrows, -, -, hsame⟩ := hvalid hpad 0 rfl
  obtain ⟨-, -, -, halike⟩ := hsame (.sample .sample 0 8) 2 rfl rfl
  obtain ⟨-, -, hunclosed⟩ := ParseState.parseCommand_growsUnder .sample .code 1
    (.sample .sample 0 4) (.sample 0)
  obtain ⟨-, -, hinBody⟩ := ParseState.parseCommand_growsUnder .sample .code 0
    (.sample .sample 1 7) (.sample 1)
  have howned : Forest.Owned .sample .code 0 (.sample 1) (ParseState.sample .sample 1 7).cursor.rest
      (Forest.sample.flatten.drop 3) (.text (.sample 1) [.sample 2] .nil) :=
    ⟨⟨_, rfl, rfl⟩, fun _ hpasses => ⟨rfl, hpasses, ⟨_, rfl, by decide, by decide⟩, trivial⟩,
      Nat.le_refl 0⟩
  obtain ⟨hskipped, -, -⟩ := ParseState.parseCommand_growsUnder .sample .code 1
    (.sample Tree.empty.arena 0 8) .sentinel
  exact ⟨rfl, rfl, hgrows, rfl, halike, rfl, (hunclosed hpad 2 rfl).1,
    ((hinBody rfl 2 rfl).2.1 _ _ (.text _ _) howned).2.1, hmissing hpad 7 rfl, hskipped rfl 7⟩

end PageOutline
