import Mathlib.Data.List.Forall2
import PageOutline.Yaml.Load
import PageOutline.Proofs.Keys

/-!
# Documents that are mappings

What a mapping without merge keys comes to when it is the outermost node of a document: its keys are
read in their order, and the dictionary has one entry for each key that equals none before it. The
mapping is looked at first, and since every collection is met once its content stays as it was found
then.
-/

namespace PageOutline.Yaml

/-- Where a sequence of two computations succeeds, both do. -/
theorem exists_of_bind_eq_ok {α β ε : Type} {x : Except ε α} {f : α → Except ε β} {b : β}
    (h : x >>= f = .ok b) : ∃ a, x = .ok a ∧ f a = .ok b := by
  cases x with
  | error e => cases h
  | ok a => exact ⟨a, rfl, h⟩

/-- What every step of a loop keeps, the loop keeps if it succeeds. -/
theorem foldlM_keeps {α σ ε : Type} {P : σ → Prop} {f : σ → α → Except ε σ}
    (hstep : ∀ {s a s'}, P s → f s a = .ok s' → P s') {xs : List α} {s s' : σ} (hs : P s)
    (h : xs.foldlM f s = .ok s') : P s' := by
  induction xs generalizing s with
  | nil => cases h; exact hs
  | cons x xs ih =>
    rw [List.foldlM_cons] at h
    obtain ⟨t, ht, h⟩ := exists_of_bind_eq_ok h
    exact ih (hstep hs ht) h

namespace Graph

variable {g : Graph} {id : Nat} {es : List (Nat × Nat)}

/-- The nodes once the keys of some entries have been settled. -/
def settled (g : Graph) (es : List (Nat × Nat)) : Graph := es.foldl (fun g e => g.settleKey e.1) g

/-- A node is read as a key. -/
def ReadsKey (g : Graph) (id : Nat) (key : Key) : Prop := g.scalarKey id (g.node id).tag = .ok key

/-- A node is read as one key. -/
theorem ReadsKey.unique {a b : Key} (ha : g.ReadsKey id a) (hb : g.ReadsKey id b) : a = b :=
  Except.ok.inj (Eq.trans (Eq.symm ha) hb)

/-- What the key of an entry is read as is among the keys of all entries. -/
theorem ReadsKey.mem_of_forall₂ {e : Nat × Nat} {key : Key} {keys : List Key}
    (hkey : g.ReadsKey e.1 key) (h : List.Forall₂ (fun e key => g.ReadsKey e.1 key) es keys)
    (he : e ∈ es) : key ∈ keys := by
  induction h with
  | nil => cases he
  | cons hhead _ ih =>
    obtain rfl | he := List.mem_cons.1 he
    · rw [hkey.unique hhead]
      exact List.mem_cons_self
    · exact List.mem_cons_of_mem _ (ih he)

/-- Setting a node leaves the others as they are. -/
theorem node_set_of_ne {j : Nat} (h : j ≠ id) (n : Node) : (g.set j n).node id = g.node id := by
  simp [node, set, h]

/-- Setting a node to what it is changes nothing. -/
theorem set_node (g : Graph) (id : Nat) : g.set id (g.node id) = g := by
  obtain ⟨nodes⟩ := g
  simp only [set, node, Graph.mk.injEq]
  apply Array.ext_getElem?
  intro i
  rw [Array.getElem?_setIfInBounds]
  split
  next hi =>
    subst hi
    split
    next hlt => simp [hlt]
    next hge => rw [Array.getElem?_eq_none (Nat.le_of_not_lt hge)]
  next => rfl

/-- Settling keys leaves every node alone that is no key `=`. -/
theorem node_settled (h : (g.node id).tag ≠ .value) : (g.settled es).node id = g.node id := by
  unfold settled
  induction es generalizing g with
  | nil => rfl
  | cons e es ih =>
    have hkey : (g.settleKey e.1).node id = g.node id := by
      unfold settleKey
      split
      next htag => exact node_set_of_ne (fun heq : e.1 = id => h (heq ▸ htag)) _
      next => rfl
    rw [List.foldl_cons, ih (hkey ▸ h), hkey]

/-- Where no key is a merge key there is no entry to merge. -/
theorem takeMerge?_eq_none (h : ∀ e ∈ es, (g.node e.1).tag ≠ .merge) : g.takeMerge? es = none := by
  induction es with
  | nil => rfl
  | cons e es ih =>
    obtain ⟨he, hes⟩ := List.forall_mem_cons.1 h
    rw [takeMerge?, if_neg he, ih hes]
    rfl

/-- A mapping without merge keys only has its keys settled. -/
theorem flatten_eq_settled (hnode : g.node id = .mapping .map es)
    (hmerge : ∀ e ∈ es, (g.node e.1).tag ≠ .merge) (bound : Nat) :
    g.flatten bound id = .ok (g.settled es) := by
  have hentries : (g.node id).entries = es := by rw [hnode]; rfl
  have hstays : (g.settled es).node id = .mapping .map es := by
    rw [node_settled (by simp [hnode, Node.tag]), hnode]
  have hset : (g.settled es).set id (.mapping .map es) = g.settled es := by
    rw [← hstays, set_node]
  unfold settled at hstays hset
  rw [flatten, mergeInto, hentries]
  simp only [takeMerge?_eq_none hmerge, List.nil_append, hstays, Node.tag, hset]
  rfl

end Graph

namespace Survey

variable {s s' : Survey} {id j : Nat} {c c' : Content} {key : Key}

/-- Noting a content changes what is known of one node. -/
theorem content?_note (s : Survey) (j : Nat) (c : Content) (id : Nat) :
    (s.note j c).content? id =
      if j = id ∧ j < s.found.size then some c else s.content? id := by
  simp only [content?, note, Array.getD_eq_getD_getElem?, Array.getElem?_setIfInBounds]
  by_cases hid : j = id
  · by_cases hlt : j < s.found.size
    · simp [hid, hid ▸ hlt]
    · simp [hid, hid ▸ hlt]
  · simp [hid]

/-- Meeting a node changes nothing if it is known; else it waits, or is a scalar that is read. -/
theorem meet_cases (h : s.meet j = .ok s') :
    s' = s ∨ s.content? j = none ∧
      ((∃ c, (∀ key, c ≠ .scalar key) ∧ s' = s.await j c) ∨
        ∃ key, s.graph.ReadsKey j key ∧ s' = s.note j (.scalar key)) := by
  unfold meet at h
  split at h
  next => exact .inl (Except.ok.inj h).symm
  next hnone =>
    refine .inr ⟨by simpa using hnone, ?_⟩
    have hscalar :
        (s.graph.scalarKey j (s.graph.node j).tag).map (fun key => s.note j (.scalar key)) =
        .ok s' → ∃ key, s.graph.ReadsKey j key ∧ s' = s.note j (.scalar key) := by
      unfold Graph.ReadsKey
      cases s.graph.scalarKey j (s.graph.node j).tag with
      | error e => intro h; cases h
      | ok key => intro h; exact ⟨key, rfl, (Except.ok.inj h).symm⟩
    cases htag : (s.graph.node j).tag <;> simp only [htag, Except.ok.injEq] at h hscalar
    case seq | omap | pairs | map | set => exact .inl ⟨_, by simp, h.symm⟩
    all_goals exact .inr (hscalar h)

/-- Meeting a node leaves the nodes as they are. -/
theorem graph_of_meet (h : s.meet j = .ok s') : s'.graph = s.graph := by
  obtain rfl | ⟨-, ⟨c, -, rfl⟩ | ⟨key, -, rfl⟩⟩ := meet_cases h <;> rfl

/-- The scalars that are known are the keys that their nodes are read as. -/
def ReadsScalars (s : Survey) : Prop :=
  ∀ id key, s.content? id = some (.scalar key) → s.graph.ReadsKey id key

/-- The scalars that are known after meeting a node are keys as those before. -/
theorem ReadsScalars.meet (h : s.ReadsScalars) (hmeet : s.meet j = .ok s') : s'.ReadsScalars := by
  intro id key hkey
  rw [graph_of_meet hmeet]
  obtain rfl | ⟨-, ⟨c, hc, rfl⟩ | ⟨key', hkey', rfl⟩⟩ := meet_cases hmeet
  · exact h id key hkey
  · have hnote : (s.note j c).content? id = some (.scalar key) := hkey
    rw [content?_note] at hnote
    split at hnote
    next => exact absurd (Option.some.inj hnote) (hc key)
    next => exact h id key hnote
  · rw [content?_note] at hkey
    split at hkey
    next hid =>
      cases hkey
      rw [← hid.1]
      exact hkey'
    next => exact h id key hkey

/-- A key that has been met is known as a scalar. -/
theorem content?_of_key (h : s.key j = .ok key) : s.content? j = some (.scalar key) := by
  unfold Survey.key at h
  split at h
  next hc => rw [hc, Except.ok.inj h]
  next => cases h

/-- Entries of a mapping are met with the keys they are read as, and each key is put behind those
before it unless it equals one of them. -/
theorem exists_keys_of_meetEntries {before parts : List (Key × Nat)} {es : List (Nat × Nat)}
    (hs : s.ReadsScalars) (h : s.meetEntries before es = .ok (parts, s')) :
    ∃ keys, List.Forall₂ (fun e key => s.graph.ReadsKey e.1 key) es keys ∧
      parts.map (·.1) = keys.foldl Key.addTo (before.map (·.1)) := by
  induction es generalizing s before with
  | nil =>
    cases h
    exact ⟨[], .nil, rfl⟩
  | cons e es ih =>
    obtain ⟨k, v⟩ := e
    rw [meetEntries] at h
    obtain ⟨t, hk, h⟩ := exists_of_bind_eq_ok h
    obtain ⟨key, hkey, h⟩ := exists_of_bind_eq_ok h
    obtain ⟨u, hv, h⟩ := exists_of_bind_eq_ok h
    have ht := hs.meet hk
    obtain ⟨keys, hkeys, hparts⟩ := ih (ht.meet hv) h
    have hread : s.graph.ReadsKey k key := graph_of_meet hk ▸ ht k key (content?_of_key hkey)
    rw [graph_of_meet hv, graph_of_meet hk] at hkeys
    refine ⟨key :: keys, .cons hread hkeys, ?_⟩
    rw [hparts, Key.map_setPart]
    rfl

/-! ### Contents that are there to stay -/

/-- A node has its content for good: it has been found, and no place but the first leads to the node
again. -/
structure Settles (s : Survey) (id : Nat) (c : Content) : Prop where
  content : s.content? id = some c
  once : ∀ position, s.met[position]? = some id → position = 0

/-- Noting a content leaves that of another node settled. -/
theorem Settles.note (h : s.Settles id c) (hne : j ≠ id) (c' : Content) :
    (s.note j c').Settles id c where
  content := by rw [content?_note, if_neg fun hid => hne hid.1, h.content]
  once := h.once

/-- A content that is settled stays so when nodes are met. -/
theorem Settles.meet (h : s.Settles id c) (hmeet : s.meet j = .ok s') : s'.Settles id c := by
  obtain rfl | ⟨hnone, hcases⟩ := meet_cases hmeet
  · exact h
  · have hne : j ≠ id := by
      rintro rfl
      cases hnone.symm.trans h.content
    obtain ⟨c', -, rfl⟩ | ⟨key, -, rfl⟩ := hcases
    · refine ⟨(h.note hne c').content, fun position hposition => ?_⟩
      have hpush : (s.met.push j)[position]? = some id := hposition
      rw [Array.getElem?_push] at hpush
      split at hpush
      next => exact absurd (Option.some.inj hpush) hne
      next => exact h.once position hpush
    · exact h.note hne _

/-- A content that is settled stays so when the entries of a mapping are met. -/
theorem Settles.meetEntries {before parts : List (Key × Nat)} {es : List (Nat × Nat)}
    (h : s.Settles id c) (hmeet : s.meetEntries before es = .ok (parts, s')) : s'.Settles id c := by
  induction es generalizing s before with
  | nil =>
    cases hmeet
    exact h
  | cons e es ih =>
    obtain ⟨k, v⟩ := e
    rw [Survey.meetEntries] at hmeet
    obtain ⟨t, hk, hmeet⟩ := exists_of_bind_eq_ok hmeet
    obtain ⟨key, -, hmeet⟩ := exists_of_bind_eq_ok hmeet
    obtain ⟨u, hv, hmeet⟩ := exists_of_bind_eq_ok hmeet
    exact ih ((h.meet hk).meet hv) hmeet

/-- Looking at another collection leaves a content that is there to stay. -/
theorem Settles.look (h : s.Settles id c) (hne : j ≠ id) (hlook : s.look j = .ok s') :
    s'.Settles id c := by
  unfold Survey.look at hlook
  split at hlook
  next => cases hlook
  next =>
    obtain ⟨t, ht, hlook⟩ := exists_of_bind_eq_ok hlook
    cases hlook
    exact (foldlM_keeps Settles.meet h ht).note hne _
  next =>
    split at hlook
    next =>
      obtain ⟨⟨es, t⟩, ht, hlook⟩ := exists_of_bind_eq_ok hlook
      cases hlook
      refine Settles.note ?_ hne _
      refine foldlM_keeps (P := fun r => r.2.Settles id c) ?_ h ht
      intro r item r' hr hstep
      obtain ⟨⟨k, v⟩, -, hstep⟩ := exists_of_bind_eq_ok hstep
      obtain ⟨u, hk, hstep⟩ := exists_of_bind_eq_ok hstep
      obtain ⟨w, hv, hstep⟩ := exists_of_bind_eq_ok hstep
      cases hstep
      exact (hr.meet hk).meet hv
    next => cases hlook
  next =>
    split at hlook
    next =>
      obtain ⟨graph, -, hlook⟩ := exists_of_bind_eq_ok hlook
      obtain ⟨⟨es, t⟩, ht, hlook⟩ := exists_of_bind_eq_ok hlook
      cases hlook
      have hgraph : ({ s with graph } : Survey).Settles id c := ⟨h.content, h.once⟩
      exact (hgraph.meetEntries ht).note hne _
    next => cases hlook

/-- So do all looks from behind the first place on. -/
theorem Settles.lookFrom {n position : Nat} (h : s.Settles id c) (hposition : 0 < position)
    (hlook : lookFrom n position s = .ok s') : s'.Settles id c := by
  induction n generalizing position s with
  | zero =>
    cases hlook
    exact h
  | succ n ih =>
    unfold Survey.lookFrom at hlook
    split at hlook
    next =>
      cases hlook
      exact h
    next j hj =>
      obtain ⟨t, ht, hlook⟩ := exists_of_bind_eq_ok hlook
      have hne : j ≠ id := by
        rintro rfl
        exact absurd (h.once position hj) (Nat.ne_of_gt hposition)
      exact ih (h.look hne ht) (Nat.succ_pos position) hlook

end Survey

/-! ### The outermost mapping -/

section Outermost

variable {g : Graph} {id : Nat} {es : List (Nat × Nat)} {s : Survey}

/-- A mapping is one of the nodes. -/
theorem Graph.lt_size_of_mapping {tag : Tag} (hnode : g.node id = .mapping tag es) :
    id < g.size := by
  by_contra hge
  have hempty : g.node id = .empty := by
    rw [Graph.node, Array.getD_eq_getD_getElem?, Array.getElem?_eq_none (Nat.le_of_not_lt hge)]
    rfl
  cases hempty.symm.trans hnode

/-- The document once its outermost mapping has been met. -/
def Survey.outset (g : Graph) (id : Nat) : Survey := (Survey.start g).await id (.dict [])

/-- At the start nothing is known of any node. -/
theorem Survey.content?_start (g : Graph) (id : Nat) : (Survey.start g).content? id = none := by
  simp only [start, content?, Array.getD_eq_getD_getElem?, Array.getElem?_replicate]
  split <;> rfl

/-- The mapping of a document is the first node that is met. -/
theorem Survey.start_meet (hnode : g.node id = .mapping .map es) :
    (Survey.start g).meet id = .ok (outset g id) := by
  have htag : ((Survey.start g).graph.node id).tag = .map := by
    rw [Survey.start, hnode, Node.tag]
  simp only [meet, content?_start, Option.isSome_none, Bool.false_eq_true, if_false, htag]
  rfl

/-- At the outset the mapping of the document has no entries, and nothing else is known. -/
theorem Survey.content?_outset (hlt : id < g.size) (j : Nat) :
    (outset g id).content? j = if j = id then some (.dict []) else none := by
  have hsize : id < (Survey.start g).found.size := by simpa [Survey.start] using hlt
  have hnote : (outset g id).content? j = ((Survey.start g).note id (.dict [])).content? j := rfl
  rw [hnote, content?_note, content?_start]
  simp [hsize, eq_comm]

/-- At the outset the mapping of the document is settled without entries. -/
theorem Survey.settles_outset (hlt : id < g.size) : (outset g id).Settles id (.dict []) where
  content := by rw [content?_outset hlt, if_pos rfl]
  once := by
    intro position hposition
    have hmet : (#[id] : Array Nat)[position]? = some id := hposition
    have hbound := (Array.getElem?_eq_some_iff.1 hmet).1
    simpa using hbound

/-- What something is known of is one of the nodes. -/
theorem Survey.lt_size_of_content? {c : Content} (h : s.content? id = some c) :
    id < s.found.size := by
  by_contra hge
  rw [content?, Array.getD_eq_getD_getElem?, Array.getElem?_eq_none (Nat.le_of_not_lt hge)] at h
  cases h

/-- The keys of the outermost mapping are read in its settled nodes, and it becomes the dictionary
of those that equal none before them. -/
theorem Survey.exists_keys_of_look (hnode : g.node id = .mapping .map es)
    (hmerge : ∀ e ∈ es, (g.node e.1).tag ≠ .merge) (h : (outset g id).look id = .ok s) :
    ∃ keys parts, List.Forall₂ (fun e key => (g.settled es).ReadsKey e.1 key) es keys ∧
      parts.map (·.1) = Key.distinct keys ∧ s.Settles id (.dict parts) := by
  have hlt := Graph.lt_size_of_mapping hnode
  have hgraph : (outset g id).graph = g := rfl
  have hentries : ((g.settled es).node id).entries = es := by
    rw [Graph.node_settled (by simp [hnode, Node.tag]), hnode, Node.entries]
  unfold look at h
  simp only [hgraph, hnode, true_or, if_true, Graph.flatten_eq_settled hnode hmerge] at h
  obtain ⟨graph, hflatten, h⟩ := exists_of_bind_eq_ok h
  obtain rfl := Except.ok.inj hflatten
  obtain ⟨⟨parts, t⟩, hmeet, h⟩ := exists_of_bind_eq_ok h
  cases h
  rw [hentries] at hmeet
  have hreads : ({ outset g id with graph := g.settled es } : Survey).ReadsScalars := by
    intro j key hkey
    have hcontent : (outset g id).content? j = some (.scalar key) := hkey
    rw [content?_outset hlt] at hcontent
    split at hcontent <;> cases hcontent
  have hsettles : ({ outset g id with graph := g.settled es } : Survey).Settles id (.dict []) :=
    ⟨(settles_outset hlt).content, (settles_outset hlt).once⟩
  obtain ⟨keys, hkeys, hparts⟩ := exists_keys_of_meetEntries hreads hmeet
  have ht := hsettles.meetEntries hmeet
  refine ⟨keys, parts, hkeys, hparts, ?_, ht.once⟩
  rw [content?_note, if_pos ⟨rfl, lt_size_of_content? ht.content⟩]

/-- The contents of a document that is a mapping without merge keys have, for this mapping, one
entry for each key that equals none before it. -/
theorem exists_keys_of_contents (hnode : g.node id = .mapping .map es)
    (hmerge : ∀ e ∈ es, (g.node e.1).tag ≠ .merge) (h : g.contents id = .ok s) :
    ∃ keys parts, List.Forall₂ (fun e key => (g.settled es).ReadsKey e.1 key) es keys ∧
      parts.map (·.1) = Key.distinct keys ∧ s.content? id = some (.dict parts) := by
  obtain ⟨n, hn⟩ : ∃ n, g.size = n + 1 := ⟨g.size - 1, by
    have hlt := Graph.lt_size_of_mapping hnode
    omega⟩
  rw [Graph.contents, Survey.start_meet hnode] at h
  have hlooks : (Survey.outset g id).lookFrom (n + 1) 0 = .ok s := hn ▸ h
  have hfirst : (Survey.outset g id).met[0]? = some id := rfl
  unfold Survey.lookFrom at hlooks
  simp only [hfirst] at hlooks
  obtain ⟨t, hlook, hrest⟩ := exists_of_bind_eq_ok hlooks
  obtain ⟨keys, parts, hkeys, hparts, ht⟩ := Survey.exists_keys_of_look hnode hmerge hlook
  exact ⟨keys, parts, hkeys, hparts, (ht.lookFrom Nat.one_pos hrest).content⟩

/-! ### The value of a dictionary -/

/-- A dictionary is assembled entry by entry. -/
theorem assemble_dict {m : Type → Type} [Monad m] [LawfulMonad m] (part : Nat → m Value)
    (parts : List (Key × Nat)) :
    (Content.dict parts).assemble part =
      .dict <$> parts.mapM fun e => (e.1.value, ·) <$> part e.2 := by
  simp only [Content.assemble, map_eq_pure_bind]

/-- Whatever the parts do, the keys are kept. -/
theorem map_fst_mapM {m : Type → Type} [Monad m] [LawfulMonad m] (part : Nat → m Value)
    (parts : List (Key × Nat)) :
    (List.map (·.1)) <$> parts.mapM (fun e => (e.1.value, ·) <$> part e.2) =
      (fun _ => parts.map (·.1.value)) <$> parts.mapM (fun e => part e.2) := by
  induction parts with
  | nil => simp
  | cons e parts ih =>
    have hcons := congrArg (fun x => (e.1.value :: ·) <$> x) ih
    simp only [Functor.map_map] at hcons
    simp only [List.mapM_cons, map_bind, bind_map_left, map_pure, List.map_cons]
    refine bind_congr fun v => ?_
    simpa only [map_eq_pure_bind] using hcons

/-- The values of entries are made with their keys as they are. -/
theorem map_fst_of_run {part : Nat → StateT Survey.Memo Option Value} {parts : List (Key × Nat)}
    {memo memo' : Survey.Memo} {entries : List (Value × Value)}
    (h : (parts.mapM fun e => (e.1.value, ·) <$> part e.2).run memo = some (entries, memo')) :
    entries.map (·.1) = parts.map (·.1.value) := by
  have hrun := congrArg (StateT.run · memo) (map_fst_mapM part parts)
  simp only [StateT.run_map, h] at hrun
  cases hparts : (parts.mapM (fun e => part e.2)).run memo with
  | none => simp [hparts] at hrun
  | some r => simpa [hparts] using congrArg (Option.map (·.1)) hrun

/-- A node that has not been put together yet takes the value of its content. -/
theorem Survey.exists_run_of_value? {n : Nat} {memo memo' : Memo} {c : Content} {v : Value}
    (hmemo : memo.getD id none = none) (hcontent : s.content? id = some c)
    (h : (s.value? (n + 1) id).run memo = some (v, memo')) :
    ∃ memo'', (c.assemble (s.value? n)).run memo = some (v, memo'') := by
  rw [value?] at h
  simp only [StateT.run_bind, StateT.run_get, pure_bind, hmemo, hcontent] at h
  have hlift : (liftM (some c) : StateT Memo Option Content).run memo = some (c, memo) := rfl
  rw [hlift] at h
  cases hassemble : (c.assemble (s.value? n)).run memo with
  | none => simp [hassemble] at h
  | some r =>
    have hv : r.1 = v := by simpa [hassemble] using congrArg (Option.map (·.1)) h
    exact ⟨r.2, by rw [← hv]⟩

/-- The outermost dictionary shows its keys, whether or not collections contain themselves. -/
theorem Survey.exists_reveal_value {parts : List (Key × Nat)}
    (h : s.content? id = some (.dict parts)) :
    ∃ entries, (s.value id).reveal = .dict entries ∧
      entries.map (·.1) = parts.map (·.1.value) := by
  simp only [value]
  split
  next v memo hrun =>
    have hmemo : (Array.replicate s.graph.size none : Memo).getD id none = none := by
      rw [Array.getD_eq_getD_getElem?, Array.getElem?_replicate]
      split <;> rfl
    obtain ⟨memo', hassemble⟩ := exists_run_of_value? hmemo h hrun
    rw [assemble_dict, StateT.run_map] at hassemble
    obtain ⟨⟨entries, memo''⟩, hentries, hv⟩ := Option.map_eq_some_iff.1 hassemble
    cases hv
    exact ⟨entries, rfl, map_fst_of_run hentries⟩
  next =>
    have hkeys := congrArg Id.run (map_fst_mapM (m := Id) (s.knot s.graph.size [id]) parts)
    simp only [knot, List.contains_nil, Bool.false_eq_true, if_false, h, assemble_dict]
    refine ⟨_, rfl, ?_⟩
    rw [Value.tieEntries_eq_map, List.map_map]
    exact hkeys

end Outermost

/-- The document in a text is a mapping of some entries without merge keys. -/
def IsMapping (source : Source) (g : Graph) (es : List (Nat × Nat)) : Prop :=
  ∃ id, readText (Token.ofSource source) = .ok (some id, g) ∧ g.node id = .mapping .map es ∧
    ∀ e ∈ es, (g.node e.1).tag ≠ .merge

/-- Where a mapping has a value, this is a dictionary with one entry for each key that equals none
before it. -/
theorem IsMapping.exists_keys_of_load {source : Source} {g : Graph} {es : List (Nat × Nat)}
    {v : Value}
    (hmapping : IsMapping source g es) (h : load source = .ok v) :
    ∃ keys entries, List.Forall₂ (fun e key => (g.settled es).ReadsKey e.1 key) es keys ∧
      v.reveal = .dict entries ∧ entries.map (·.1) = (Key.distinct keys).map (·.value) := by
  obtain ⟨id, htext, hnode, hmerge⟩ := hmapping
  unfold load at h
  rw [htext] at h
  have hload : (g.contents id >>= fun s => pure (s.value id)) = .ok v := h
  obtain ⟨s, hcontents, hvalue⟩ := exists_of_bind_eq_ok hload
  cases hvalue
  obtain ⟨keys, parts, hkeys, hparts, hcontent⟩ := exists_keys_of_contents hnode hmerge hcontents
  obtain ⟨entries, hreveal, hentries⟩ := Survey.exists_reveal_value hcontent
  refine ⟨keys, entries, hkeys, hreveal, ?_⟩
  rw [hentries, ← hparts, List.map_map]
  rfl

end PageOutline.Yaml
