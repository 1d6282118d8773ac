import Mathlib.Data.Finset.Card
import PageOutline.Proofs.Overrides

/-!
# Views of a database

A database is asked in several ways: for one code, for all its entries in order, and for numbers of
entries and of codes. Each way goes through the two sets on its own. Here they are compared with the
list of entries, where the project's entries stand before the engine's: a code means what its first
entry says, and the numbers differ by the codes that have an entry in both sets.
-/

namespace PageOutline

namespace Table

variable {α : Type} {t other : Table α}

/-- Replacing what is stored for a code leaves the codes as they are. -/
theorem keys_replace (code : Code) (a : α) (es : List (Code × α)) :
    (replace code a es).map (·.1) = es.map (·.1) := by
  induction es with
  | nil => rfl
  | cons e es ih =>
    unfold replace
    split
    next hcode => rfl
    next => rw [List.map_cons, List.map_cons, ih]

/-- A code gets one entry, however often it is set. -/
theorem nodup_keys_insert (hkeys : t.keys.Nodup) (code : Code) (a : α) :
    (t.insert code a).keys.Nodup := by
  by_cases hmem : code ∈ t.keys
  · have hcontains := (t.contains_iff_mem_keys code).2 hmem
    rw [insert, if_pos hcontains, keys, keys_replace]
    exact hkeys
  · rw [insert_of_notMem_keys hmem, keys, List.map_append]
    refine List.nodup_append.2 ⟨hkeys, List.nodup_singleton code, fun c hc c' hc' hsame => ?_⟩
    obtain rfl : c' = code := List.mem_singleton.1 hc'
    exact hmem (hsame ▸ hc)

/-- Merging puts no code in twice. -/
theorem nodup_keys_merge (hkeys : t.keys.Nodup) : (t.merge other).keys.Nodup := by
  obtain ⟨es⟩ := other
  simp only [merge]
  induction es generalizing t with
  | nil => exact hkeys
  | cons e es ih => exact ih (nodup_keys_insert hkeys e.1 e.2)

/-- A table that is mapped has the same codes. -/
@[simp] theorem keys_map {β : Type} (f : α → β) (t : Table α) : (t.map f).keys = t.keys := by
  simp [keys, map]

/-- A table has as many codes as entries. -/
theorem length_keys (t : Table α) : t.keys.length = t.size := List.length_map ..

end Table

namespace Database

/-- A database of two sets of descriptors: a code has at most one entry in each set, and no entry of
the project is vacant. -/
structure OfSets (db : Database) : Prop where
  user : db.user.keys.Nodup
  default : db.default.keys.Nodup
  filled : ∀ e ∈ db.user.entries, e.2.isSome

/-- The codes with an entry in some set. -/
def codes (db : Database) : Finset Code := db.user.keys.toFinset ∪ db.default.keys.toFinset

/-- The codes of the engine that the project has an entry for. -/
def shadowed (db : Database) : Finset Code := db.user.keys.toFinset ∩ db.default.keys.toFinset

variable {db : Database} {code : Code}

/-! ### Where such databases come from -/

/-- No code is twice in the stock of commands. -/
theorem nodup_keys_xp : Stock.xp.keys.Nodup := by decide +kernel

/-- No entry of a set of commands is vacant. -/
theorem filled_of_map_some (t : CommandSet) : ∀ e ∈ (t.map some).entries, e.2.isSome := by
  intro e he
  obtain ⟨row, -, rfl⟩ := List.mem_map.1 he
  rfl

/-- A database that was just made is one of two sets. -/
theorem ofSets_create {version : EngineVersion} {user : CommandSet} {default? : Option CommandSet}
    (huser : user.keys.Nodup) (hdefault : ∀ default ∈ default?, default.keys.Nodup)
    (hcreate : create version user default? = .ok db) : db.OfSets := by
  have huser' : (user.map some).keys.Nodup := by rwa [Table.keys_map]
  cases default? with
  | some default =>
    cases hcreate
    exact ⟨huser', hdefault default rfl, filled_of_map_some user⟩
  | none =>
    cases version with
    | xp =>
      cases hcreate
      exact ⟨huser', nodup_keys_xp, filled_of_map_some user⟩
    | vx => cases hcreate
    | ace => cases hcreate

/-- Inserting a descriptor makes no entry vacant. -/
theorem filled_insert {t : Table (Option Descriptor)} (h : ∀ e ∈ t.entries, e.2.isSome)
    (code : Code) (d : Descriptor) : ∀ e ∈ (t.insert code (some d)).entries, e.2.isSome := by
  obtain ⟨es⟩ := t
  unfold Table.insert
  split
  · clear * - h
    induction es with
    | nil => exact h
    | cons e es ih =>
      simp only [List.mem_cons, forall_eq_or_imp] at h
      simp only [Table.replace]
      split
      · simpa using h.2
      · simp only [List.mem_cons, forall_eq_or_imp]
        exact ⟨h.1, ih h.2⟩
  · intro e he
    obtain he | he := List.mem_append.1 he
    · exact h e he
    · rw [List.mem_singleton.1 he]
      rfl

/-- Merging in a set of commands makes no entry vacant. -/
theorem filled_merge {t : Table (Option Descriptor)} (h : ∀ e ∈ t.entries, e.2.isSome)
    (set : CommandSet) : ∀ e ∈ (t.merge (set.map some)).entries, e.2.isSome := by
  obtain ⟨rows⟩ := set
  simp only [Table.merge, Table.map, List.foldl_map]
  induction rows generalizing t with
  | nil => exact h
  | cons row rows ih => exact ih (filled_insert h row.1 row.2)

/-- Registering commands keeps a database one of two sets, whether or not the call is refused. -/
theorem OfSets.register (h : db.OfSets) (r : Registration) : (db.register r).OfSets := by
  cases hset : r.set? with
  | none => rwa [register_of_none hset]
  | some set =>
    rw [register_of_some hset]
    exact ⟨Table.nodup_keys_merge h.user, h.default, filled_merge h.filled set⟩

/-- Whatever is registered, a database is one of two sets. -/
theorem OfSets.registerAll (h : db.OfSets) (rs : List Registration) :
    (db.registerAll rs).OfSets := by
  induction rs generalizing db with
  | nil => exact h
  | cons r rs ih => exact ih (h.register r)

/-! ### Looking a code up -/

/-- The project has no entry for a code, or a descriptor. -/
theorem OfSets.user_cases (h : db.OfSets) (code : Code) :
    db.user.find? code = none ∨ ∃ d, db.user.find? code = some (some d) := by
  cases hentry : db.user.find? code with
  | none => exact .inl rfl
  | some entry =>
    obtain ⟨d, rfl⟩ := Option.isSome_iff_exists.1
      (h.filled _ ((Table.find?_eq_some_iff h.user).1 hentry))
    exact .inr ⟨d, rfl⟩

/-- What is stored for a code is what the database has for it. -/
theorem OfSets.stored?_eq (h : db.OfSets) (code : Code) : db.stored? code = db.get? code := by
  unfold stored? get?
  obtain hnone | ⟨d, hd⟩ := h.user_cases code
  · rw [hnone]
  · rw [hd]

/-- A code means what its first entry says. -/
theorem OfSets.lookup_entries (h : db.OfSets) (code : Code) :
    db.entries.lookup code = (db.get? code).map some := by
  have hdefault := Table.find?_map some db.default code
  rw [Table.find?, Table.map] at hdefault
  rw [entries, List.lookup_append, hdefault]
  unfold get?
  obtain hnone | ⟨d, hd⟩ := h.user_cases code
  · rw [hnone]
    rw [Table.find?] at hnone
    rw [hnone, Option.none_or]
  · rw [hd]
    rw [Table.find?] at hd
    rw [hd, Option.some_or]
    rfl

/-- A code means a descriptor if the first entry with the code holds it. -/
theorem OfSets.get?_eq_some_iff (h : db.OfSets) {d : Descriptor} :
    db.get? code = some d ↔ ∃ before after, db.entries = before ++ (code, some d) :: after ∧
      ∀ e ∈ before, e.1 ≠ code := by
  have hlookup : db.get? code = some d ↔ db.entries.lookup code = some (some d) := by
    rw [h.lookup_entries]
    cases db.get? code <;> simp
  rw [hlookup, List.lookup_eq_some_iff]
  simp only [bne_iff_ne, ne_comm (a := code)]

/-- A database has nothing for a code exactly if no entry has the code. -/
theorem OfSets.get?_eq_none_iff (h : db.OfSets) :
    db.get? code = none ↔ ∀ e ∈ db.entries, e.1 ≠ code := by
  have hlookup : db.get? code = none ↔ db.entries.lookup code = none := by
    rw [h.lookup_entries, Option.map_eq_none_iff]
  rw [hlookup, List.lookup_eq_none_iff]
  simp only [bne_iff_ne, ne_comm (a := code)]

/-- A database contains the codes with an entry in some set. -/
theorem contains_iff_mem_codes : db.contains code = true ↔ code ∈ db.codes := by
  simp [contains, codes, Table.contains_iff_mem_keys]

/-- The entries have the codes with an entry in some set. -/
theorem mem_map_fst_entries : code ∈ db.entries.map (·.1) ↔ code ∈ db.codes := by
  simp [entries, codes, Table.keys]

/-- A code has an entry in some set exactly if the database has a descriptor for it. -/
theorem OfSets.mem_codes_iff (h : db.OfSets) : code ∈ db.codes ↔ db.get? code ≠ none := by
  rw [← mem_map_fst_entries, ne_eq, h.get?_eq_none_iff]
  simp

/-! ### Counting -/

/-- The size of a database is the number of its entries. -/
theorem size_eq_length_entries (db : Database) : db.size = db.entries.length := by
  simp [size, entries, Table.size, Nat.add_comm]

/-- Each code counts once for the number of distinct codes. -/
theorem OfSets.distinctSize_eq (h : db.OfSets) : db.distinctSize = db.codes.card := by
  have hnew : (db.user.keys.filter fun code => !db.default.contains code).toFinset =
      db.user.keys.toFinset \ db.default.keys.toFinset := by
    ext code
    simp [← Table.contains_iff_mem_keys]
  have hcard := List.toFinset_card_of_nodup (h.user.filter fun code => !db.default.contains code)
  rw [distinctSize, ← hcard, hnew, ← Table.length_keys, ← List.toFinset_card_of_nodup h.default,
    Nat.add_comm, Finset.card_sdiff_add_card]
  rfl

/-- A code that is in both sets has two entries and counts once among the codes. -/
theorem OfSets.size_eq (h : db.OfSets) : db.size = db.distinctSize + db.shadowed.card := by
  rw [h.distinctSize_eq, codes, shadowed, Finset.card_union_add_card_inter,
    List.toFinset_card_of_nodup h.user, List.toFinset_card_of_nodup h.default, Table.length_keys,
    Table.length_keys, size, Nat.add_comm]

/-- The project shadows the codes that both sets contain. -/
theorem mem_shadowed_iff :
    code ∈ db.shadowed ↔ db.user.contains code = true ∧ db.default.contains code = true := by
  simp [shadowed, Table.contains_iff_mem_keys]

/-- Nothing is shadowed if no code of the project is one of the engine's. -/
theorem shadowed_eq_empty_iff :
    db.shadowed = ∅ ↔ ∀ code, db.user.contains code = true → db.default.contains code = false := by
  simp only [Finset.eq_empty_iff_forall_notMem, mem_shadowed_iff, not_and, Bool.not_eq_true]

/-- A database is empty if it has no entries. -/
theorem isEmpty_iff : db.isEmpty = true ↔ db.entries = [] := by
  rw [isEmpty, beq_iff_eq, size_eq_length_entries, List.length_eq_zero_iff]

/-- All that a database of two sets is asked for agrees with its list of entries. A code means what
its first entry says, and nothing if it has none; the entry that an edit would change says the same,
and the database contains the codes that mean something. Its size is the number of entries. The
number of distinct codes is that of the codes that mean something: it is smaller than the size by
the number of codes that are in both sets, so the two are the same exactly if no code is. The
database is empty exactly if no code means anything. -/
theorem views_agree (h : db.OfSets) :
    (∀ code,
      (∀ d, db.get? code = some d ↔ ∃ before after,
        db.entries = before ++ (code, some d) :: after ∧ ∀ e ∈ before, e.1 ≠ code) ∧
      (db.get? code = none ↔ ∀ e ∈ db.entries, e.1 ≠ code) ∧
      db.stored? code = db.get? code ∧
      (db.contains code = true ↔ db.get? code ≠ none)) ∧
    db.size = db.entries.length ∧
    ((∀ code, code ∈ db.codes ↔ db.get? code ≠ none) ∧ db.distinctSize = db.codes.card) ∧
    ((∀ code, code ∈ db.shadowed ↔
        db.user.contains code = true ∧ db.default.contains code = true) ∧
      db.distinctSize ≤ db.size ∧ db.size - db.distinctSize = db.shadowed.card ∧
      (db.distinctSize = db.size ↔
        ∀ code, db.user.contains code = true → db.default.contains code = false)) ∧
    (db.isEmpty = true ↔ ∀ code, db.get? code = none) := by
  have hsize := h.size_eq
  refine ⟨fun code => ⟨fun d => h.get?_eq_some_iff, h.get?_eq_none_iff, h.stored?_eq code, ?_⟩,
    db.size_eq_length_entries, ⟨fun code => h.mem_codes_iff, h.distinctSize_eq⟩,
    ⟨fun code => mem_shadowed_iff, by omega, by omega, ?_⟩, ?_⟩
  · exact contains_iff_mem_codes.trans h.mem_codes_iff
  · have hcard : db.distinctSize = db.size ↔ db.shadowed.card = 0 := by omega
    rw [hcard, Finset.card_eq_zero, shadowed_eq_empty_iff]
  · rw [isEmpty_iff]
    constructor
    · intro hentries code
      rw [h.get?_eq_none_iff, hentries]
      simp
    · intro hnone
      refine List.eq_nil_iff_forall_not_mem.2 fun e he => ?_
      exact h.get?_eq_none_iff.1 (hnone e.1) e he rfl

/-- The codes 2 and 3 of the project shadow those of the engine, and the code 4 does not. -/
theorem views_agree_sample :
    let named (name : String) : Descriptor := ⟨.str name, .mark⟩
    let user : CommandSet := ⟨[(3, named "A"), (4, named "B"), (2, named "C")]⟩
    let default : CommandSet := ⟨[(1, named "D"), (2, named "E"), (3, named "F")]⟩
    let db : Database := ⟨.ace, user.map some, default⟩
    db.OfSets ∧ db.size = 6 ∧ db.distinctSize = 4 ∧ db.size - db.distinctSize = db.shadowed.card ∧
      (db.get? 2 = some (named "C") ∧ db.stored? 2 = db.get? 2) ∧
      ¬ db.distinctSize = db.size ∧ ¬ db.isEmpty = true := by
  intro named user default db
  have hsets : db.OfSets :=
    ofSets_create (by decide) (by rintro _ ⟨⟩; decide)
      (show create .ace user (some default) = .ok db from rfl)
  obtain ⟨hlook, -, -, ⟨-, -, hsub, hequal⟩, hempty⟩ := views_agree hsets
  refine ⟨hsets, rfl, rfl, hsub, ⟨?_, (hlook 2).2.2.1⟩, fun heq => ?_, fun he => ?_⟩
  · exact ((hlook 2).1 _).2 ⟨[(3, some (named "A")), (4, some (named "B"))], _, rfl, by decide⟩
  · cases hequal.1 heq 2 rfl
  · cases hempty.1 he 2

end Database

end PageOutline
