import PageOutline.Proofs.Forest.Layout
import PageOutline.Proofs.Forest.Parsing

/-!
# Round trips

A forest that is written out as a page and parsed again comes back: its nesting, the commands of its
nodes with the texts of their lines joined, and the entries of its routes.
-/

namespace PageOutline

/-- The nodes of a tree in the order of a walk, each with its command and its companions. -/
def Tree.items (t : Tree) : List (Command × List Command) :=
  (t.walk.map Prod.fst).filterMap fun id =>
    t.arena.nodes[id]?.map fun n => (n.command, n.companions.toList)

/-- What is read off the nodes of a block by their numbers is what is read off the block. -/
theorem Arena.filterMap_range'_of_holds {α : Type} {a : Arena} {id : Nat} {block : List Node}
    (h : a.Holds id block) (f : Node → α) :
    (List.range' id block.length).filterMap (fun i => a.nodes[i]?.map f) = block.map f := by
  induction block generalizing id with
  | nil => rfl
  | cons n block ih =>
    obtain ⟨hnode, hrest⟩ := h
    rw [List.length_cons, List.range'_succ, List.filterMap_cons_some (by rw [hnode]; rfl), ih hrest]
    rfl

namespace Forest

variable {db : Database} {layer : Layer}

/-- Whether every text command of a forest has a text, and all of its lines too. -/
def HasTexts : {layer : Layer} → Forest layer → Prop
  | _, nil => True
  | _, padding _ rest => rest.HasTexts
  | _, leaf _ rest => rest.HasTexts
  | _, text c lines rest => (∀ d ∈ c :: lines, d.text?.isSome = true) ∧ rest.HasTexts
  | _, route _ _ rest => rest.HasTexts
  | _, scope _ body arms _ rest => body.HasTexts ∧ arms.HasTexts ∧ rest.HasTexts
  | _, arm _ body rest => body.HasTexts ∧ rest.HasTexts

/-- The commands of the nodes of a forest in the order of the page, with the entries of routes. -/
def items : {layer : Layer} → Forest layer → List (Command × List Command)
  | _, nil => []
  | _, padding _ rest => rest.items
  | _, leaf c rest => (c, []) :: rest.items
  | _, text c lines rest => (c.joined lines, []) :: rest.items
  | _, route c entries rest => (c, entries) :: rest.items
  | _, scope c body arms _ rest => (c, []) :: (body.items ++ (arms.items ++ rest.items))
  | _, arm delimiter body rest => (delimiter, []) :: (body.items ++ rest.items)

/-- The texts of the nodes of a forest in the order of the page; the lines of a text command are
joined to its own text. -/
def texts : {layer : Layer} → Forest layer → List (Option (List Nat))
  | _, nil => []
  | _, padding _ rest => rest.texts
  | _, leaf c rest => c.text? :: rest.texts
  | _, text c lines rest =>
    some ([lineBreak].intercalate ((c :: lines).filterMap Command.text?)) :: rest.texts
  | _, route c _ rest => c.text? :: rest.texts
  | _, scope c body arms _ rest => c.text? :: (body.texts ++ (arms.texts ++ rest.texts))
  | _, arm delimiter body rest => delimiter.text? :: (body.texts ++ rest.texts)

/-- Commands and companions of a forest's nodes are those that the forest lists. -/
theorem map_nodes (f : Forest layer) (parent next : Nat) :
    (f.nodes parent next).map (fun n => (n.command, n.companions.toList)) = f.items := by
  induction f generalizing parent next with
  | nil => rfl
  | padding c rest ih => exact ih parent next
  | leaf c rest ih | text c lines rest ih | route c entries rest ih => simp [nodes, items, ih]
  | scope c body arms terminator rest ihBody ihArms ih => simp [nodes, items, ihBody, ihArms, ih]
  | arm delimiter body rest ihBody ih => simp [nodes, items, ihBody, ih]

/-- The tree of a forest shows, along a walk, the commands and companions that the forest lists. -/
theorem items_tree (f : Forest .body) : f.tree.items = f.items := by
  have h := Arena.filterMap_range'_of_holds f.holds_tree fun n => (n.command, n.companions.toList)
  rw [map_nodes, length_nodes] at h
  rw [Tree.items, walk_tree, size_tree, h]

/-- Where texts and lines are texts, the commands of a forest have the texts with their lines
joined. -/
theorem map_text?_items {f : Forest layer} (h : f.HasTexts) :
    f.items.map (·.1.text?) = f.texts := by
  induction f with
  | nil => rfl
  | padding c rest ih => exact ih h
  | leaf c rest ih => simp [items, texts, ih h]
  | text c lines rest ih => simp [items, texts, ih h.2, Command.text?_joined h.1]
  | route c entries rest ih => simp [items, texts, ih h]
  | scope c body arms terminator rest ihBody ihArms ih =>
    simp [items, texts, ihBody h.1, ihArms h.2.1, ih h.2.2]
  | arm delimiter body rest ihBody ih => simp [items, texts, ihBody h.1, ih h.2]

/-- Where all lines are texts, nothing is an issue but codes without a descriptor. -/
theorem kind_of_mem_issues {f : Forest layer} (h : f.HasTexts) (position : Int) :
    ∀ d ∈ f.issues db position, d.kind = .unknownCode := by
  induction f generalizing position with
  | nil => simp [issues]
  | padding c rest ih => exact ih h _
  | leaf c rest ih =>
    intro d hd
    unfold issues at hd
    split at hd
    · rcases List.mem_cons.1 hd with rfl | hd
      · rfl
      · exact ih h _ d hd
    · exact ih h _ d hd
  | text c lines rest ih =>
    rw [issues, malformedLines_eq_nil h.1]
    exact ih h.2 _
  | route c entries rest ih => exact ih h _
  | scope c body arms terminator rest ihBody ihArms ih =>
    simp only [issues, List.mem_append]
    rintro d (hd | hd | hd)
    · exact ihBody h.1 _ d hd
    · exact ihArms h.2.1 _ d hd
    · exact ih h.2.2 _ d hd
  | arm delimiter body rest ihBody ih =>
    simp only [issues, List.mem_append]
    rintro d (hd | hd)
    · exact ihBody h.1 _ d hd
    · exact ih h.2 _ d hd

/-- Parsing the page of a forest gives the forest back, with every node in its place, when each of
its commands is read as what it was written for and it does not nest too deep. -/
theorem parse_flatten {matching : Matching} {room : Nat} {diagnostics : Diagnostics}
    {log : Array LogRecord} {f : Forest .body} (hfits : f.Fits db matching none none)
    (htexts : f.HasTexts) (hdepth : f.depth ≤ room) :
    (parsePageWithin room db matching diagnostics log f.flatten).outcome = .ok f.tree ∧
      f.tree.shape = f.shapes ∧ f.tree.items = f.items ∧ f.items.map (·.1.text?) = f.texts ∧
      (parsePageWithin room db matching diagnostics log f.flatten).diagnostics.entries.toList =
        diagnostics.entries.toList ++ f.issues db 0 ∧
      ∀ d ∈ f.issues db 0, d.kind = .unknownCode := by
  rw [parsePageWithin_flatten hfits hdepth]
  exact ⟨rfl, f.shape_tree, f.items_tree, map_text?_items htexts,
    Journal.entries_addAll ⟨diagnostics, log⟩ (f.issues db 0), kind_of_mem_issues htexts 0⟩

/-- The round trip for a page with a scope of two arms, a text with a line, a route and an unknown
command. -/
theorem parse_flatten_sample :
    (sample.Fits .sample .code none none ∧ sample.HasTexts ∧ sample.depth ≤ 1) ∧
      (parsePageWithin 1 .sample .code (.empty true) #[] sample.flatten).outcome =
          .ok sample.tree ∧
        sample.tree.shape = sample.shapes ∧ sample.tree.items = sample.items ∧
        sample.items.map (·.1.text?) = sample.texts ∧
        (parsePageWithin 1 .sample .code (.empty true) #[]
            sample.flatten).diagnostics.entries.toList = [] ++ sample.issues .sample 0 ∧
        ∀ d ∈ sample.issues .sample 0, d.kind = .unknownCode := by
  have htext : sample.HasTexts := by
    simp only [sample, HasTexts, and_true]
    decide
  have hfits : sample.Fits .sample .code none none := by
    refine ⟨rfl, by simp, ⟨_, rfl, ?body, ⟨⟨_, rfl, ?arm⟩, ?route, trivial⟩, rfl⟩,
      rfl, by simp, ?leaf, trivial⟩
    case body =>
      refine ⟨rfl, ?_, ⟨_, rfl, by decide, by decide⟩, trivial⟩
      rintro _ ⟨⟩
      decide
    case arm => decide
    case leaf =>
      rw [show Database.kind? .sample 9 = none from rfl]
      simp
    case route =>
      refine ⟨rfl, ?_, ⟨_, rfl, by decide, by decide⟩, rfl, ?_, trivial⟩
      all_goals
        rintro _ ⟨⟩
        decide
  have hdepth : sample.depth ≤ 1 := by decide
  exact ⟨⟨hfits, htext, hdepth⟩, parse_flatten hfits htext hdepth⟩

end Forest

end PageOutline
