import PageOutline.Proofs.Mappings
import PageOutline.Proofs.Paths

/-!
# Codes written twice

A file of descriptors is a mapping whose keys denote codes. Two keys that denote one code and are
not equal, such as a number and a text, cannot be loaded together. Equal keys never get that far:
the dictionary that the file is read as has one entry for them, with the place of the first and the
value of the last, and the others are gone before anything looks for a code used twice.
-/

namespace PageOutline

open Yaml (Key)

namespace CommandSet

variable {folder : Folder} {path : Path} {bytes : FileContent} {g : Yaml.Graph}
  {es : List (Nat × Nat)} {set : CommandSet}

/-- A set that is loaded from a file is loaded from the value of its text. -/
theorem exists_value_of_loadFile (hread : folder.read path = .ok bytes)
    (h : loadFile folder path = .ok set) :
    ∃ v, Yaml.load (.ofBytes bytes) = .ok v ∧ load v path.text = .ok set := by
  cases hvalue : Yaml.load (.ofBytes bytes) with
  | error e => cases e <;> simp [loadFile, hread, hvalue] at h
  | ok v =>
    rw [loadFile_of_value hread hvalue] at h
    cases hload : load v path.text with
    | error e =>
      rw [hload] at h
      cases h
    | ok set' =>
      rw [hload] at h
      cases h
      exact ⟨v, rfl, hload⟩

/-- A set that is loaded from a mapping has the codes of the keys that equal none before them. -/
theorem exists_keys_of_loadFile (hread : folder.read path = .ok bytes)
    (hmapping : Yaml.IsMapping (.ofBytes bytes) g es) (h : loadFile folder path = .ok set) :
    ∃ keys, List.Forall₂ (fun e key => (g.settled es).ReadsKey e.1 key) es keys ∧
      (Key.distinct keys).map Key.code? = set.keys.map some ∧ set.keys.Nodup := by
  obtain ⟨v, hvalue, hload⟩ := exists_value_of_loadFile hread h
  obtain ⟨keys, entries, hkeys, hreveal, hentries⟩ := hmapping.exists_keys_of_load hvalue
  have hgive := entriesGive_of_load hreveal hload
  refine ⟨keys, hkeys, ?_, hgive.nodup List.nodup_nil⟩
  have hcodes := congrArg (List.map fun p => p.1.code?) hgive.map_eq
  have hvalues := congrArg (List.map fun v => (KeyReading.ofValue v).code?) hentries
  simp only [List.map_map] at hcodes hvalues
  calc (Key.distinct keys).map Key.code?
      = entries.map fun e => (KeyReading.ofValue e.1).code? := hvalues.symm
    _ = set.entries.map fun row => some row.1 := hcodes
    _ = set.keys.map some := by rw [Table.keys, List.map_map]; rfl

/-- A file that is a mapping loses an entry only to an equal key. If it is loaded, its codes are
those that the written keys denote, each once, and there are as many descriptors as entries exactly
if no two keys are equal. If two keys denote one code and are not equal, it is not loaded; the error
names the file unless a scalar has no value or loading comes to a key that no message can speak
of. -/
theorem loadFile_of_mapping (hread : folder.read path = .ok bytes)
    (hmapping : Yaml.IsMapping (.ofBytes bytes) g es) :
    (∀ set, loadFile folder path = .ok set →
      ∃ keys, List.Forall₂ (fun e key => (g.settled es).ReadsKey e.1 key) es keys ∧
        set.keys.Nodup ∧ (∀ code, code ∈ set.keys ↔ ∃ key ∈ keys, key.code? = some code) ∧
        set.size ≤ es.length ∧
        (set.size = es.length ↔ keys.Pairwise fun a b => a.isSame b = false)) ∧
    ∀ e ∈ es, ∀ e' ∈ es, ∀ a b code, (g.settled es).ReadsKey e.1 a →
      (g.settled es).ReadsKey e'.1 b → a.code? = some code → b.code? = some code →
      a.isSame b = false →
        (∀ set, loadFile folder path ≠ .ok set) ∧
        ((∃ f, loadFile folder path = .error (.data (.rejected path.text f))) ↔
          Yaml.load (.ofBytes bytes) = .error .malformed ∨
            ∃ v, Yaml.load (.ofBytes bytes) = .ok v ∧
              ∀ key, v.ComesToKey key → key.IsNameable) := by
  constructor
  · intro set hset
    obtain ⟨keys, hkeys, hcodes, hnodup⟩ := exists_keys_of_loadFile hread hmapping hset
    have hsize : set.size = (Key.distinct keys).length := by
      simpa [Table.size, Table.keys] using (congrArg List.length hcodes).symm
    refine ⟨keys, hkeys, hnodup, fun code => Key.mem_codes_iff hcodes, ?_, ?_⟩
    · rw [hsize, hkeys.length_eq]
      exact (Key.distinct_sublist keys).length_le
    · rw [hsize, hkeys.length_eq]
      exact Key.length_distinct_eq_iff
  · intro e he e' he' a b code ha hb hacode hbcode hdiffer
    have hnone : ∀ set, loadFile folder path ≠ .ok set := by
      intro set hset
      obtain ⟨keys, hkeys, hcodes, hnodup⟩ := exists_keys_of_loadFile hread hmapping hset
      have hsame := Key.isSame_of_code? hcodes hnodup (ha.mem_of_forall₂ hkeys he)
        (hb.mem_of_forall₂ hkeys he') hacode hbcode
      cases hdiffer.symm.trans hsame
    refine ⟨hnone, ?_⟩
    have hnames := @loadFile_names_source_iff folder path
    simp only [hnone, exists_false, false_or, hread, Except.ok.injEq, exists_eq_left'] at hnames
    exact hnames

/-! ### Two entries of one code -/

/-- Whether two nodes are read as keys of a code, and these are equal or not. -/
def readsPair (code : Code) (same : Bool) (g : Yaml.Graph) (first last : Nat) : Bool :=
  match g.scalarKey first (g.node first).tag, g.scalarKey last (g.node last).tag with
  | .ok a, .ok b => a.code? == some code && b.code? == some code && a.isSame b == same
  | _, _ => false

/-- Whether a document is a mapping of two entries without merge keys whose keys are such a pair. -/
def holdsPair (code : Code) (same : Bool) : Except YamlError (Option Nat × Yaml.Graph) → Bool
  | .ok (some id, g) =>
    match g.node id with
    | .mapping tag [e, e'] =>
      tag == .map && (g.node e.1).tag != .merge && (g.node e'.1).tag != .merge &&
        readsPair code same (g.settled [e, e']) e.1 e'.1
    | _ => false
  | _ => false

/-- The check of a text with two entries says that they are there, what code their keys denote and
whether the keys are equal. -/
theorem exists_pair_of_holdsPair (code : Code) (same : Bool) (source : Yaml.Source)
    (h : holdsPair code same (Yaml.readText (Yaml.Token.ofSource source)) = true) :
    ∃ g e e' a b, Yaml.IsMapping source g [e, e'] ∧ (g.settled [e, e']).ReadsKey e.1 a ∧
      (g.settled [e, e']).ReadsKey e'.1 b ∧ a.code? = some code ∧ b.code? = some code ∧
      a.isSame b = same := by
  unfold holdsPair at h
  split at h
  next id g htext =>
    split at h
    next tag e e' hnode =>
      simp only [Bool.and_eq_true, beq_iff_eq, bne_iff_ne] at h
      obtain ⟨⟨⟨rfl, hfirst⟩, hlast⟩, hpair⟩ := h
      unfold readsPair at hpair
      split at hpair
      next a b ha hb =>
        simp only [Bool.and_eq_true, beq_iff_eq] at hpair
        have hmapping : Yaml.IsMapping source g [e, e'] :=
          ⟨id, htext, hnode, by simp [hfirst, hlast]⟩
        exact ⟨g, e, e', a, b, hmapping, ha, hb, hpair.1.1, hpair.1.2, hpair.2⟩
      next => cases hpair
    next => cases h
  next => cases h

/-- Whether a text has a value from which a set is loaded. -/
def givesSet (source : String) : Except YamlError Value → Bool
  | .ok v => (load v source).toBool
  | .error _ => false

/-- The check of a value that was read says that the file is loaded. -/
theorem exists_set_of_givesSet (hread : folder.read path = .ok bytes)
    (h : givesSet path.text (Yaml.load (.ofBytes bytes)) = true) :
    ∃ set, loadFile folder path = .ok set := by
  unfold givesSet at h
  split at h
  next v hvalue =>
    rw [loadFile_of_value hread hvalue]
    cases hload : load v path.text with
    | ok set => exact ⟨set, rfl⟩
    | error e =>
      rw [hload] at h
      cases h
  next => cases h

/-- A file of two descriptors under the given keys. -/
def pairText (first last : String) : String :=
  "\x7b" ++ first ++ ": \x7bname: A, kind: \x7btype: Blank\x7d\x7d, " ++
    last ++ ": \x7bname: B, kind: \x7btype: Blank\x7d\x7d\x7d"

/-- One number is written twice, in base ten and in base sixteen. -/
def sameText : String := pairText "101" "0x65"

/-- One code is written as a number and as a text. -/
def mixedText : String := pairText "101" "'101'"

/-- The file with one number written twice is loaded. -/
theorem exists_set_of_sameText :
    ∃ set, loadFile (sampleFolder sameText) (.ofText "conf/c.yaml") = .ok set :=
  exists_set_of_givesSet (read_sampleFolder sameText) (by decide +kernel)

/-- The file has two entries with equal keys, which denote one code. -/
theorem exists_pair_of_sameText :
    ∃ g e e' a b, Yaml.IsMapping (.ofBytes sameText.toUTF8.data.toList) g [e, e'] ∧
      (g.settled [e, e']).ReadsKey e.1 a ∧ (g.settled [e, e']).ReadsKey e'.1 b ∧
      a.code? = some 101 ∧ b.code? = some 101 ∧ a.isSame b = true :=
  exists_pair_of_holdsPair 101 true (.ofBytes sameText.toUTF8.data.toList) (by decide +kernel)

/-- Of two entries for one number a single descriptor is loaded, and two entries for a number and a
text are not loaded at all. -/
theorem loadFile_of_mapping_sample :
    let path := Path.ofText "conf/c.yaml"
    (∃ g e e' set, Yaml.IsMapping (.ofBytes sameText.toUTF8.data.toList) g [e, e'] ∧
        loadFile (sampleFolder sameText) path = .ok set ∧ set.size < 2) ∧
      ∃ g e e', Yaml.IsMapping (.ofBytes mixedText.toUTF8.data.toList) g [e, e'] ∧
        ∀ set, loadFile (sampleFolder mixedText) path ≠ .ok set := by
  intro path
  constructor
  · obtain ⟨set, hset⟩ := exists_set_of_sameText
    obtain ⟨g, e, e', a, b, hmapping, ha, hb, -, -, hsame⟩ := exists_pair_of_sameText
    obtain ⟨keys, hkeys, -, -, hle, heq⟩ :=
      (loadFile_of_mapping (read_sampleFolder sameText) hmapping).1 set hset
    refine ⟨g, e, e', set, hmapping, hset, Nat.lt_of_le_of_ne hle fun hsize => ?_⟩
    obtain ⟨a', rest, ha', hrest, rfl⟩ := List.forall₂_cons_left_iff.1 hkeys
    obtain ⟨b', others, hb', -, rfl⟩ := List.forall₂_cons_left_iff.1 hrest
    have hdiffer := List.rel_of_pairwise_cons (heq.1 hsize) (List.mem_cons_self (l := others))
    rw [← ha.unique ha', ← hb.unique hb', hsame] at hdiffer
    cases hdiffer
  · obtain ⟨g, e, e', a, b, hmapping, ha, hb, hacode, hbcode, hdiffer⟩ :=
      exists_pair_of_holdsPair 101 false (.ofBytes mixedText.toUTF8.data.toList)
        (by decide +kernel)
    obtain ⟨hnone, -⟩ := (loadFile_of_mapping (read_sampleFolder mixedText) hmapping).2
      e (by simp) e' (by simp) a b 101 ha hb hacode hbcode hdiffer
    exact ⟨g, e, e', hmapping, hnone⟩

/-- Not every mapping in which two entries have keys of one code is refused: a number may be written
twice. -/
theorem not_forall_loadFile_of_mapping :
    ¬ ∀ (folder : Folder) (path : Path) (bytes : FileContent) (g : Yaml.Graph)
      (es : List (Nat × Nat)) (i j : Nat) (e e' : Nat × Nat) (a b : Key) (code : Code),
      folder.read path = .ok bytes → Yaml.IsMapping (.ofBytes bytes) g es →
      i < j → es[i]? = some e → es[j]? = some e' →
      (g.settled es).ReadsKey e.1 a → (g.settled es).ReadsKey e'.1 b →
      a.code? = some code → b.code? = some code →
        ∃ err, loadFile folder path = .error err := by
  intro h
  obtain ⟨set, hset⟩ := exists_set_of_sameText
  obtain ⟨g, e, e', a, b, hmapping, ha, hb, hacode, hbcode, -⟩ := exists_pair_of_sameText
  obtain ⟨err, herr⟩ := h _ _ _ g [e, e'] 0 1 e e' a b 101 (read_sampleFolder sameText) hmapping
    Nat.zero_lt_one rfl rfl ha hb hacode hbcode
  cases hset.symm.trans herr

end CommandSet

end PageOutline
