import PageOutline.Proofs.Forest.Parsing
import PageOutline.Proofs.Literals
import PageOutline.Proofs.Sweep.Rooted
import PageOutline.Proofs.Traversal

/-!
# Outlines as text

The text of a tree has one line for each node, and a line tells the depth and the code of its node.
The depths of an outline read from top to bottom say where each part of it ends, so trees with the
same text have the same outline.
-/

namespace PageOutline

namespace Text

/-- The lines of a text, as they stand between line breaks. -/
def lines (s : String) : List String := (s.split '\n').toList.map (·.copy)

/-- Lines that are joined by line breaks are split into the same lines again. -/
theorem lines_intercalate {l : List String} (h : ∀ s ∈ l, OneLine s) :
    lines ("\n".intercalate l) = if l = [] then [""] else l :=
  String.toList_split_intercalate h

/-- How the line of a node begins: two blanks for each level, the code of the node and one more
blank. -/
def Begins (depth : Nat) (code : Code) (line : String) : Prop :=
  ∃ rest, line = "".pushn ' ' (2 * depth) ++ toString code ++ " " ++ rest

variable {depth depth' : Nat} {code code' : Code} {line : String}

/-- The blanks that a line begins with are those of its indentation, and a numeral follows them. -/
theorem Begins.parts (h : Begins depth code line) :
    line.toList.takeWhile (· == ' ') = List.replicate (2 * depth) ' ' ∧
      (line.toList.dropWhile (· == ' ')).takeWhile (· != ' ') = (toString code).toList := by
  obtain ⟨rest, rfl⟩ := h
  have hdigits : ∀ c ∈ (toString code).toList, (c != ' ') = true := by
    intro c hc
    rcases eq_minus_or_isDigit hc with rfl | hdigit
    · rfl
    · exact bne_iff_ne.2 fun heq => by rw [heq] at hdigit; cases hdigit
  have hblanks : ∀ c ∈ List.replicate (2 * depth) ' ', (c == ' ') = true :=
    fun c hc => beq_iff_eq.2 (List.eq_of_mem_replicate hc)
  have hline : ("".pushn ' ' (2 * depth) ++ toString code ++ " " ++ rest).toList =
      List.replicate (2 * depth) ' ' ++ ((toString code).toList ++ ' ' :: rest.toList) := by
    simp [toList_pushn]
  obtain ⟨d, ds, hcode⟩ := List.exists_cons_of_ne_nil (toList_toString_ne_nil code)
  have hd : (d == ' ') = false := by
    have hne := hdigits d (by rw [hcode]; exact List.mem_cons_self)
    simpa using hne
  rw [hline, List.takeWhile_append_of_pos hblanks, List.dropWhile_append_of_pos hblanks, hcode]
  constructor
  · simp [hd]
  · have hrest : (d :: ds ++ ' ' :: rest.toList).dropWhile (· == ' ') =
        d :: ds ++ ' ' :: rest.toList := by
      simp [hd]
    rw [hrest, ← hcode, List.takeWhile_append_of_pos hdigits]
    simp

/-- Two natural numbers with the same numeral are the same. -/
theorem toString_nat_inj {m n : Nat} (h : toString m = toString n) : m = n := by
  have hdigits : Nat.toDigits 10 m = Nat.toDigits 10 n := by
    rw [← Nat.toList_repr, ← Nat.toList_repr, ← Nat.toString_eq_repr, ← Nat.toString_eq_repr, h]
  rw [← Nat.ofDigitChars_ten_toDigits (n := m), hdigits, Nat.ofDigitChars_ten_toDigits]

/-- Two integers with the same numeral are the same, since only those below zero have a sign. -/
theorem toString_int_inj {i j : Int} (h : toString i = toString j) : i = j := by
  have hsign (m n : Nat) : toString (Int.ofNat m) ≠ toString (Int.negSucc n) := by
    intro heq
    have hmem : '-' ∈ (toString (Int.ofNat m)).toList := by
      rw [heq, show toString (Int.negSucc n) = "-" ++ toString (n + 1) from rfl,
        String.toList_append]
      exact List.mem_append_left _ (List.mem_singleton_self _)
    cases isDigit_of_mem_toString (n := m) hmem
  cases i with
  | ofNat m =>
    cases j with
    | ofNat n => exact congrArg Int.ofNat (toString_nat_inj h)
    | negSucc n => exact absurd h (hsign m n)
  | negSucc m =>
    cases j with
    | ofNat n => exact absurd h.symm (hsign n m)
    | negSucc n =>
      have hnumeral : "-" ++ toString (m + 1) = "-" ++ toString (n + 1) := h
      have hnat : toString (m + 1) = toString (n + 1) := by simpa using hnumeral
      rw [Nat.succ.inj (toString_nat_inj hnat)]

/-- A line begins for one depth and one code only. -/
theorem Begins.unique (h : Begins depth code line) (h' : Begins depth' code' line) :
    depth = depth' ∧ code = code' := by
  obtain ⟨hblanks, hdigits⟩ := h.parts
  obtain ⟨hblanks', hdigits'⟩ := h'.parts
  constructor
  · have hlength := congrArg List.length (hblanks.symm.trans hblanks')
    rw [List.length_replicate, List.length_replicate] at hlength
    omega
  · have htext : toString code = toString code' :=
      String.toList_inj.1 (hdigits.symm.trans hdigits')
    exact toString_int_inj htext

end Text

namespace Shape

/-- What is listed first is an outline's own code, at its own depth. -/
theorem head?_preorders {depth : Nat} {r : List (Code × Nat)} (ss : List Shape)
    (hr : ∀ e ∈ r.head?, e.2 < depth) : ∀ e ∈ (preorders depth ss ++ r).head?, e.2 ≤ depth := by
  cases ss with
  | nil => exact fun e he => Nat.le_of_lt (hr e he)
  | cons s ss =>
    obtain ⟨code, children⟩ := s
    rintro _ ⟨⟩
    exact Nat.le_refl depth

mutual

/-- An outline can be told from what is listed after it, if that is not deeper than the outline. -/
theorem preorder_append_inj {depth : Nat} {r r' : List (Code × Nat)}
    (hr : ∀ e ∈ r.head?, e.2 ≤ depth) (hr' : ∀ e ∈ r'.head?, e.2 ≤ depth) :
    ∀ {s s' : Shape}, preorder depth s ++ r = preorder depth s' ++ r' → s = s' ∧ r = r'
  | .node code children, .node code' children', h => by
    obtain ⟨hentry, hrest⟩ := List.cons.inj h
    obtain ⟨rfl, rfl⟩ := preorders_append_inj (fun e he => Nat.lt_succ_of_le (hr e he))
      (fun e he => Nat.lt_succ_of_le (hr' e he)) hrest
    exact ⟨by rw [(Prod.mk.inj hentry).1], rfl⟩

/-- Outlines can be told from what is listed after them, if that is less deep. -/
theorem preorders_append_inj {depth : Nat} {r r' : List (Code × Nat)}
    (hr : ∀ e ∈ r.head?, e.2 < depth) (hr' : ∀ e ∈ r'.head?, e.2 < depth) :
    ∀ {ss ss' : List Shape}, preorders depth ss ++ r = preorders depth ss' ++ r' → ss = ss' ∧ r = r'
  | [], [], h => ⟨rfl, h⟩
  | [], .node code children :: _, h => by
    have h0 : r = (code, depth) :: _ := h
    exact absurd (hr (code, depth) (by rw [h0]; rfl)) (Nat.lt_irrefl depth)
  | .node code children :: _, [], h => by
    have h0 : (code, depth) :: _ = r' := h
    exact absurd (hr' (code, depth) (by rw [← h0]; rfl)) (Nat.lt_irrefl depth)
  | s :: ss, s' :: ss', h => by
    simp only [preorders, List.append_assoc] at h
    obtain ⟨rfl, hrest⟩ := preorder_append_inj (head?_preorders ss hr) (head?_preorders ss' hr') h
    obtain ⟨rfl, rfl⟩ := preorders_append_inj hr hr' hrest
    exact ⟨rfl, rfl⟩

end

end Shape

namespace Tree

open Text

/-- A tree that some page gives. -/
def OfPage (t : Tree) : Prop :=
  ∃ (room : Nat) (db : Database) (matching : Matching) (diagnostics : Diagnostics)
    (log : Array LogRecord) (page : List Command),
    (parsePageWithin room db matching diagnostics log page).outcome = .ok t

/-- None of the names that a database gives has a line break. -/
def NamesOneLine (db? : Option Database) : Prop :=
  ∀ code d, db?.bind (·.get? code) = some d → OneLine d.name.display

variable {t t' : Tree} {db? db'? : Option Database}

/-! ### The lines of a tree -/

/-- The line of a node begins with its depth and its code, whether or not its code has a name. -/
theorem begins_line (db? : Option Database) (depth : Nat) (c : Command) :
    Begins depth c.code (line db? depth c) :=
  ⟨nameOf db? c.code ++ ": " ++ ", ".intercalate (Value.literals c.parameters),
    by simp only [line, String.append_assoc]⟩

/-- Whatever the parameters are, a node has one line. -/
theorem oneLine_line (hnames : NamesOneLine db?) (depth : Nat) (c : Command) :
    OneLine (line db? depth c) := by
  have hname : OneLine (nameOf db? c.code) := by
    unfold nameOf
    split
    next d hd => exact hnames c.code d hd
    next => decide
  have hblanks : OneLine ("".pushn ' ' (2 * depth)) := oneLine_pushn (by decide) (by decide) _
  have hliterals : OneLine (", ".intercalate (Value.literals c.parameters)) :=
    oneLine_intercalate (by decide) (Value.oneLine_literals c.parameters)
  simp only [line, oneLine_append]
  exact ⟨⟨⟨⟨⟨hblanks, oneLine_toString_int c.code⟩, by decide⟩, hname⟩, by decide⟩, hliterals⟩

/-- A page's tree has its nodes in the order of a walk. -/
theorem OfPage.map_fst_walk (h : t.OfPage) : t.walk.map Prod.fst = List.range' 1 t.size := by
  obtain ⟨room, db, matching, diagnostics, log, page, hparse⟩ := h
  obtain ⟨f, -, -, hresult⟩ := Forest.exists_of_parsePageWithin hparse
  rw [hresult] at hparse
  cases hparse
  exact f.walk_tree

/-- A walk of a page's tree meets as many nodes as the tree has. -/
theorem OfPage.length_walk (h : t.OfPage) : t.walk.length = t.size := by
  have hlength := congrArg List.length h.map_fst_walk
  rwa [List.length_map, List.length_range'] at hlength

/-- A page's tree is a forest with the root in it. -/
theorem OfPage.linked (h : t.OfPage) : t.arena.Linked ∧ t.root < t.arena.size := by
  obtain ⟨room, db, matching, diagnostics, log, page, hparse⟩ := h
  exact linked_of_parsePageWithin hparse

/-- Every node of a walk has its line. -/
theorem OfPage.lines_eq (h : t.OfPage) (db? : Option Database) :
    t.lines db? = t.walk.map fun e => line db? e.2 (t.arena.commandAt e.1) := by
  rw [lines, ← List.filterMap_eq_map]
  refine List.filterMap_congr fun (id, depth) he => ?_
  have hmem : id ∈ List.range' 1 t.size := by
    rw [← h.map_fst_walk]
    exact List.mem_map_of_mem he
  have hlt : id < t.arena.size := by
    rw [List.mem_range'_1, size] at hmem
    omega
  have hnode : t.arena.nodes[id]? = some t.arena.nodes[id] := Array.getElem?_eq_getElem hlt
  dsimp only [Function.comp_apply]
  rw [hnode, Arena.commandAt_of_some hnode]
  rfl

/-- The outline from top to bottom has the codes and the depths of the walk. -/
theorem OfPage.preorders_shape (h : t.OfPage) :
    Shape.preorders 0 t.shape = t.walk.map fun e => ((t.arena.commandAt e.1).code, e.2) := by
  obtain ⟨hlinked, hroot⟩ := h.linked
  obtain ⟨l, hwalks, hshape⟩ := hlinked.exists_walks_below hroot
  have hwalk : t.walk = l := hwalks.walkFrom (Nat.le_of_lt (hwalks.length_below_lt hlinked hroot))
  rw [hwalk]
  exact hshape

/-! ### Reading the text of a tree -/

/-- The text of a tree splits into the lines of its nodes; without a node it is empty. -/
theorem lines_render (hnames : NamesOneLine db?) (h : t.OfPage) :
    Text.lines (t.render db?) = if t.lines db? = [] then [""] else t.lines db? := by
  refine lines_intercalate fun s hs => ?_
  rw [h.lines_eq] at hs
  obtain ⟨e, -, rfl⟩ := List.mem_map.1 hs
  exact oneLine_line hnames _ _

/-- An empty line is the line of no node. -/
theorem not_begins_empty (depth : Nat) (code : Code) : ¬Begins depth code "" := by
  rintro ⟨rest, hrest⟩
  have hblank : ' ' ∈ "".toList := by
    rw [hrest]
    simp
  exact List.not_mem_nil hblank

/-- Trees with the same text have the same lines. -/
theorem lines_eq_of_render (h : t.OfPage) (h' : t'.OfPage) (hnames : NamesOneLine db?)
    (hnames' : NamesOneLine db'?) (hrender : t.render db? = t'.render db'?) :
    t.lines db? = t'.lines db'? := by
  -- No line of a node is empty, so the empty text is that of a tree without nodes only.
  have hempty {u : Tree} {du? : Option Database} (hu : u.OfPage) : u.lines du? ≠ [""] := by
    intro heq
    have hmem : "" ∈ u.lines du? := by simp [heq]
    rw [hu.lines_eq] at hmem
    obtain ⟨e, -, he⟩ := List.mem_map.1 hmem
    exact not_begins_empty _ _ (he ▸ begins_line du? e.2 (u.arena.commandAt e.1))
  have hlines := congrArg Text.lines hrender
  rw [lines_render hnames h, lines_render hnames' h'] at hlines
  split_ifs at hlines with hnil hnil' hnil'
  · rw [hnil, hnil']
  · exact absurd hlines.symm (hempty h')
  · exact absurd hlines (hempty h)
  · exact hlines

/-- Lines tell the codes and the depths of the nodes that they are of. -/
theorem map_walk_eq_of_lines (h : t.OfPage) (h' : t'.OfPage)
    (hlines : t.lines db? = t'.lines db'?) :
    t.walk.map (fun e => ((t.arena.commandAt e.1).code, e.2)) =
      t'.walk.map fun e => ((t'.arena.commandAt e.1).code, e.2) := by
  rw [h.lines_eq, h'.lines_eq] at hlines
  have hlength : t.walk.length = t'.walk.length := by
    have hlength := congrArg List.length hlines
    rwa [List.length_map, List.length_map] at hlength
  refine List.ext_getElem (by simpa using hlength) fun k hk hk' => ?_
  rw [List.length_map] at hk hk'
  have hline : line db? t.walk[k].2 (t.arena.commandAt t.walk[k].1) =
      line db'? t'.walk[k].2 (t'.arena.commandAt t'.walk[k].1) := by
    have hat := congrArg (·[k]?) hlines
    simpa [List.getElem?_map, List.getElem?_eq_getElem hk, List.getElem?_eq_getElem hk'] using hat
  have hbegins := begins_line db? t.walk[k].2 (t.arena.commandAt t.walk[k].1)
  rw [hline] at hbegins
  obtain ⟨hdepth, hcode⟩ := hbegins.unique (begins_line ..)
  rw [List.getElem_map, List.getElem_map, hcode, hdepth]

/-- The text of a page's tree has one line for each node, in the order of a walk, and none if there
is no node. Each begins with two blanks for each level of its node, the code of the node and one
more blank; the depths and codes of the walk are those of the outline from top to bottom. So trees
with the same text have the same outline, also if the names are taken from different databases. -/
theorem shape_eq_of_render (h : t.OfPage) (hnames : NamesOneLine db?) :
    ((t.size = 0 → t.render db? = "") ∧
      (t.size ≠ 0 → (Text.lines (t.render db?)).length = t.size)) ∧
    (t.walk.length = t.size ∧
      ∀ k id depth : Nat, t.walk[k]? = some (id, depth) → ∃ line,
        (Text.lines (t.render db?))[k]? = some line ∧
          Begins depth (t.arena.commandAt id).code line) ∧
    Shape.preorders 0 t.shape = t.walk.map (fun e => ((t.arena.commandAt e.1).code, e.2)) ∧
    ∀ (t' : Tree) (db'? : Option Database), t'.OfPage → NamesOneLine db'? →
      t.render db? = t'.render db'? → t.shape = t'.shape := by
  have hsize : (t.lines db?).length = t.size := by
    rw [h.lines_eq, List.length_map, h.length_walk]
  have hsplit (hpos : t.size ≠ 0) : Text.lines (t.render db?) = t.lines db? := by
    rw [lines_render hnames h, if_neg]
    intro hnil
    rw [hnil, List.length_nil] at hsize
    exact hpos hsize.symm
  refine ⟨⟨fun hzero => ?_, fun hpos => by rw [hsplit hpos, hsize]⟩,
    ⟨h.length_walk, fun k id depth hk => ?_⟩, h.preorders_shape, fun t' db'? h' hnames' heq => ?_⟩
  · have hnil : t.lines db? = [] := List.length_eq_zero_iff.1 (hsize.trans hzero)
    rw [render, hnil]
    rfl
  · have hpos : t.size ≠ 0 := by
      have hlt := (List.getElem?_eq_some_iff.1 hk).1
      rw [h.length_walk] at hlt
      omega
    refine ⟨line db? depth (t.arena.commandAt id), ?_, begins_line ..⟩
    rw [hsplit hpos, h.lines_eq, List.getElem?_map, hk]
    rfl
  · have hcodes := map_walk_eq_of_lines h h' (lines_eq_of_render h h' hnames hnames' heq)
    rw [← h.preorders_shape, ← h'.preorders_shape] at hcodes
    have happend : Shape.preorders 0 t.shape ++ [] = Shape.preorders 0 t'.shape ++ [] := by
      rw [hcodes]
    exact (Shape.preorders_append_inj (by simp) (by simp) happend).1

/-- The names in the sample have no line breaks. -/
theorem namesOneLine_sample : NamesOneLine (some .sample) := by
  intro code d hd
  rw [Option.bind_some, Database.get?] at hd
  cases hentry : Database.sample.user.find? code with
  | none =>
    rw [hentry] at hd
    cases hd
  | some entry =>
    have hmem := (Table.find?_eq_some_iff (by decide)).1 hentry
    simp only [Database.sample, List.mem_cons, List.not_mem_nil, or_false, Prod.mk.injEq] at hmem
    rw [hentry] at hd
    rcases hmem with ⟨-, rfl⟩ | ⟨-, rfl⟩ | ⟨-, rfl⟩ <;> cases hd <;> decide

/-- The text of the second node was joined from two lines and stands on one. -/
theorem shape_eq_of_render_sample :
    let t := Forest.sample.tree
    let text := "1 Check: 'text'\n  4 Text: 'text\\ntext'\n  2 ?: 'text'\n" ++
      "    6 Route: 'text'\n9 ?: 'text'"
    t.OfPage ∧ NamesOneLine (some .sample) ∧ t.render (some .sample) = text ∧
      (Text.lines text).length = 5 ∧ t.walk[3]? = some (4, 2) ∧
      (∃ line, (Text.lines text)[3]? = some line ∧ Begins 2 6 line) ∧
      ∀ (t' : Tree) (db'? : Option Database), t'.OfPage → NamesOneLine db'? →
        t'.render db'? = text → t'.shape = t.shape := by
  intro t text
  have hpage : t.OfPage := ⟨1, .sample, .code, .empty true, #[], Forest.sample.flatten, rfl⟩
  have htext : t.render (some .sample) = text := by decide +kernel
  obtain ⟨⟨-, hlength⟩, ⟨-, hline⟩, -, hshape⟩ := shape_eq_of_render hpage namesOneLine_sample
  have hsize : t.size = 5 := by decide +kernel
  rw [htext, hsize] at hlength
  rw [htext] at hline hshape
  have hwalk : t.walk[3]? = some (4, 2) := by decide +kernel
  have hcode : (t.arena.commandAt 4).code = 6 := by decide +kernel
  have hroute := hline 3 4 2 hwalk
  rw [hcode] at hroute
  refine ⟨hpage, namesOneLine_sample, htext, hlength (by omega), hwalk, hroute, ?_⟩
  intro t' db'? h' hnames' heq
  exact (hshape t' db'? h' hnames' heq.symm).symm

end Tree

end PageOutline
