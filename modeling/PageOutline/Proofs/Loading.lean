import PageOutline.CommandSet.File

/-!
# Loading command sets

An entry of a command set is checked for its key, the range of its code, a code that an earlier
entry has and its descriptor, in this order. Loading goes through the entries in the order of the
data: where none is bad all are kept, and otherwise the first bad one gives the error, whatever
follows it.

Two kinds of keys are no part of this. An infinity is a number without an integer part, and a key or
code with too many digits cannot be put into a message. Loading that comes to such a key ends with
an error that names neither the source nor the entry.
-/

namespace PageOutline

open Schema

/-! ## One entry -/

/-- The code that a key stands for. -/
def KeyReading.code? : KeyReading → Option Code
  | .code n => some n
  | .notInteger => none
  | .infinite => none

/-- A key that a message can speak of. It is no infinity, and no integer in what the message shows
has more digits than a numeral may have; that is the code of the key, or the key if it has no
code. -/
def Value.IsNameable (key : Value) : Prop :=
  match KeyReading.ofValue key with
  | .code n => (Value.int n).hasLiteral = true
  | .notInteger => key.hasLiteral = true
  | .infinite => False

/-- A key that a message can speak of is no infinity. -/
theorem Value.IsNameable.ne_infinite {key : Value} (h : key.IsNameable) :
    KeyReading.ofValue key ≠ .infinite := by
  intro hkey
  simp [IsNameable, hkey] at h

/-- A key that stands for an integer that has a numeral, or is refused as a key. It is no infinity
and no integer with too many digits, but what it holds may have too many. -/
def Value.IsReadable (key : Value) : Prop :=
  match KeyReading.ofValue key with
  | .code n => (Value.int n).hasLiteral = true
  | .notInteger => True
  | .infinite => False

/-- A key that a message can speak of is readable. -/
theorem Value.IsNameable.isReadable {key : Value} (h : key.IsNameable) : key.IsReadable := by
  unfold IsNameable at h
  unfold IsReadable
  split at h
  · exact h
  · trivial
  · exact h

/-- A readable key is no infinity. -/
theorem Value.IsReadable.ne_infinite {key : Value} (h : key.IsReadable) :
    KeyReading.ofValue key ≠ .infinite := by
  intro hkey
  simp [IsReadable, hkey] at h

/-- A message cannot speak of a readable key exactly when the key is refused and holds an integer
with too many digits. -/
theorem Value.IsReadable.not_isNameable_iff {key : Value} (h : key.IsReadable) :
    ¬ key.IsNameable ↔ KeyReading.ofValue key = .notInteger ∧ key.hasLiteral = false := by
  unfold IsReadable at h
  unfold IsNameable
  cases hkey : KeyReading.ofValue key with
  | code n => simpa [hkey] using h
  | notInteger => simp
  | infinite => simp [hkey] at h

/-- The codes that the keys of some entries stand for. -/
def Schema.Entries.codes (es : Entries) : List Code :=
  es.filterMap fun e => (KeyReading.ofValue e.1).code?

/-- An entry with nothing wrong, after entries that have taken some codes: its key is a code that is
still free and its data is read as a descriptor. -/
structure EntryGives (taken : List Code) (e : Value × Value) (code : Code) (d : Descriptor) :
    Prop where
  key : KeyReading.ofValue e.1 = .code code
  inRange : code.InRange
  free : code ∉ taken
  read : Descriptor.read e.2 = .ok d

/-- A bad entry, after entries that have taken some codes, with the first check that it fails. -/
inductive EntryFails (taken : List Code) (e : Value × Value) : LoadFailure → Prop
  | badKey (hkey : KeyReading.ofValue e.1 = .notInteger) : EntryFails taken e (.badKey e.1)
  | outOfRange {code : Code} (hkey : KeyReading.ofValue e.1 = .code code)
      (hrange : ¬ code.InRange) : EntryFails taken e (.outOfRange code)
  | definedTwice {code : Code} (hkey : KeyReading.ofValue e.1 = .code code)
      (hrange : code.InRange) (htaken : code ∈ taken) : EntryFails taken e (.definedTwice code)
  | invalid {code : Code} {faults : List Fault} (hkey : KeyReading.ofValue e.1 = .code code)
      (hrange : code.InRange) (hfree : code ∉ taken)
      (hread : Descriptor.read e.2 = .faulty faults) : EntryFails taken e (.invalid code faults)

section Entry

variable {taken : List Code} {e : Value × Value} {code : Code} {d : Descriptor} {f : LoadFailure}

/-- An entry that gives a descriptor does not fail. -/
theorem EntryGives.not_fails (h : EntryGives taken e code d) : ¬ EntryFails taken e f := by
  rintro (⟨hkey⟩ | ⟨hkey, hrange⟩ | ⟨hkey, -, htaken⟩ | ⟨hkey, -, -, hread⟩)
  all_goals obtain hkey := h.key.symm.trans hkey
  · cases hkey
  · cases hkey
    exact hrange h.inRange
  · cases hkey
    exact h.free htaken
  · cases h.read.symm.trans hread

/-- An entry whose key is no infinity gives a descriptor or fails a check. -/
theorem exists_gives_or_exists_fails (taken : List Code)
    (hfinite : KeyReading.ofValue e.1 ≠ .infinite) :
    (∃ code d, EntryGives taken e code d) ∨ ∃ f, EntryFails taken e f := by
  cases hkey : KeyReading.ofValue e.1 with
  | notInteger => exact .inr ⟨_, .badKey hkey⟩
  | infinite => exact absurd hkey hfinite
  | code code =>
    by_cases hrange : Code.InRange code
    · by_cases htaken : code ∈ taken
      · exact .inr ⟨_, .definedTwice hkey hrange htaken⟩
      · cases hread : Descriptor.read e.2 with
        | ok d => exact .inl ⟨code, d, hkey, hrange, htaken, hread⟩
        | faulty faults => exact .inr ⟨_, .invalid hkey hrange htaken hread⟩
    · exact .inr ⟨_, .outOfRange hkey hrange⟩

/-- A failure names the code of its entry, and none if the key gives none. -/
theorem EntryFails.code?_eq (h : EntryFails taken e f) :
    f.code? = (KeyReading.ofValue e.1).code? := by
  cases h with
  | badKey hkey => rw [hkey]; rfl
  | outOfRange hkey hrange => rw [hkey]; rfl
  | definedTwice hkey hrange htaken => rw [hkey]; rfl
  | invalid hkey hrange hfree hread => rw [hkey]; rfl

/-- A code that is in the range has few enough digits to be written. -/
theorem hasLiteral_of_inRange {n : Int} (h : Code.InRange n) : (Value.int n).hasLiteral = true := by
  have hdigits : (65535 : Nat) < Nat.pow 10 Text.maxDigits := by decide +kernel
  have hlow : 0 ≤ n := h.1
  have hhigh : n ≤ 65535 := h.2
  simp only [Value.hasLiteral, decide_eq_true_eq]
  omega

/-- The key of an entry that gives a descriptor can be named. -/
theorem EntryGives.isNameable (h : EntryGives taken e code d) : e.1.IsNameable := by
  simpa only [Value.IsNameable, h.key] using hasLiteral_of_inRange h.inRange

end Entry

/-! ## Entries in order -/

/-- Entries with nothing wrong, after entries that have taken some codes, and what they give in
their order. -/
inductive EntriesGive : (taken : List Code) → Entries → List (Code × Descriptor) → Prop
  | nil {taken : List Code} : EntriesGive taken [] []
  | cons {taken : List Code} {e : Value × Value} {es : Entries} {code : Code} {d : Descriptor}
      {given : List (Code × Descriptor)} (he : EntryGives taken e code d)
      (hes : EntriesGive (taken ++ [code]) es given) :
      EntriesGive taken (e :: es) ((code, d) :: given)

/-- No entry is bad after those before it. -/
def Schema.Entries.AreGood (es : Entries) : Prop :=
  ∀ before e after f, es = before ++ e :: after → ¬ EntryFails (codes before) e f

/-- A bad entry with none before it, and the first check that it fails. -/
structure Schema.Entries.FirstBad (es before : Entries) (e : Value × Value) (f : LoadFailure) :
    Prop where
  split : ∃ after, es = before ++ e :: after
  areGood : before.AreGood
  fails : EntryFails before.codes e f

namespace EntriesGive

variable {taken : List Code} {es es' : Entries} {given : List (Code × Descriptor)}

/-- What entries give is cut where the entries are cut. -/
theorem exists_of_append (h : EntriesGive taken (es ++ es') given) :
    ∃ left right, EntriesGive taken es left ∧
      EntriesGive (taken ++ left.map (·.1)) es' right := by
  induction es generalizing taken given with
  | nil => exact ⟨[], given, .nil, by simpa using h⟩
  | cons e es ih =>
    cases h with
    | cons he hes =>
      obtain ⟨left, right, hleft, hright⟩ := ih hes
      exact ⟨_ :: left, right, .cons he hleft, by simpa using hright⟩

/-- The entries that give descriptors denote the codes of these. -/
theorem codes_eq (h : EntriesGive taken es given) : es.codes = given.map (·.1) := by
  induction h with
  | nil => rfl
  | cons he hes ih =>
    rw [Entries.codes, List.filterMap_cons, he.key] at *
    simp only [KeyReading.code?, List.map_cons]
    rw [← ih]
    rfl

/-- Every entry gives one descriptor, for the code of its key and read from its data. -/
theorem map_eq (h : EntriesGive taken es given) :
    es.map (fun e => (KeyReading.ofValue e.1, Descriptor.read e.2)) =
      given.map fun row => (.code row.1, .ok row.2) := by
  induction h with
  | nil => rfl
  | cons he hes ih => simp only [List.map_cons, he.key, he.read, ih]

/-- No code is given twice, or given and taken before. -/
theorem nodup (h : EntriesGive taken es given) (htaken : taken.Nodup) :
    (taken ++ given.map (·.1)).Nodup := by
  induction h with
  | nil => simpa using htaken
  | @cons taken e es code d given he hes ih =>
    have hnodup : (taken ++ [code]).Nodup := by
      refine List.nodup_append.2 ⟨htaken, by simp, fun c hc c' hc' => ?_⟩
      rintro rfl
      exact he.free (List.mem_singleton.1 hc' ▸ hc)
    simpa using ih hnodup

/-- The keys of entries that give descriptors can all be named. -/
theorem isNameable (h : EntriesGive taken es given) : ∀ e ∈ es, e.1.IsNameable := by
  induction h with
  | nil => simp
  | cons he hes ih => exact List.forall_mem_cons.2 ⟨he.isNameable, ih⟩

/-- Of entries that give descriptors none is bad. -/
theorem areGood (h : EntriesGive [] es given) : es.AreGood := by
  rintro before e after f rfl hfails
  obtain ⟨left, right, hleft, hright⟩ := h.exists_of_append
  cases hright with
  | cons he _ =>
    rw [List.nil_append, ← hleft.codes_eq] at he
    exact he.not_fails hfails

end EntriesGive

/-- Entries are cut at the first that gives nothing, if there is one. -/
theorem exists_entriesGive_or_exists_cut (taken : List Code) (es : Entries) :
    (∃ given, EntriesGive taken es given) ∨
      ∃ before e after given, es = before ++ e :: after ∧ EntriesGive taken before given ∧
        ∀ code d, ¬ EntryGives (taken ++ given.map (·.1)) e code d := by
  induction es generalizing taken with
  | nil => exact .inl ⟨[], .nil⟩
  | cons e es ih =>
    by_cases he : ∃ code d, EntryGives taken e code d
    · obtain ⟨code, d, he⟩ := he
      obtain ⟨given, hes⟩ | ⟨before, x, after, given, rfl, hbefore, hx⟩ := ih (taken ++ [code])
      · exact .inl ⟨_, .cons he hes⟩
      · exact .inr ⟨e :: before, x, after, (code, d) :: given, rfl, .cons he hbefore,
          by simpa using hx⟩
    · exact .inr ⟨[], e, es, [], rfl, .nil, fun code d h => he ⟨code, d, by simpa using h⟩⟩

/-- Entries of which no key is an infinity give descriptors, or there is a first bad one. -/
theorem exists_give_or_exists_firstBad {es : Entries}
    (hfinite : ∀ e ∈ es, KeyReading.ofValue e.1 ≠ .infinite) :
    (∃ given, EntriesGive [] es given) ∨ ∃ before e f, es.FirstBad before e f := by
  obtain hgive | ⟨before, e, after, given, rfl, hbefore, hnone⟩ :=
    exists_entriesGive_or_exists_cut [] es
  · exact .inl hgive
  · have hcodes : before.codes = [] ++ given.map (·.1) := hbefore.codes_eq
    rw [← hcodes] at hnone
    obtain ⟨code, d, hgives⟩ | ⟨f, hfails⟩ :=
      exists_gives_or_exists_fails before.codes (hfinite e (by simp))
    · exact absurd hgives (hnone code d)
    · exact .inr ⟨before, e, f, ⟨after, rfl⟩, hbefore.areGood, hfails⟩

/-- Entries that are not bad and of which no key is an infinity give descriptors. -/
theorem Schema.Entries.AreGood.exists_give {es : Entries} (h : es.AreGood)
    (hfinite : ∀ e ∈ es, KeyReading.ofValue e.1 ≠ .infinite) :
    ∃ given, EntriesGive [] es given := by
  obtain hgive | ⟨before, e, f, ⟨after, rfl⟩, -, hfails⟩ := exists_give_or_exists_firstBad hfinite
  · exact hgive
  · exact absurd hfails (h before e after f rfl)

/-! ## Adding entries to a set -/

namespace CommandSet

variable {set : CommandSet} {e : Value × Value} {code : Code} {d : Descriptor} {f : LoadFailure}
  {es rest : Entries} {given : List (Code × Descriptor)}

/-- Adding an entry that gives a descriptor puts this behind the others. -/
theorem addEntry_of_gives (h : EntryGives set.keys e code d) :
    set.addEntry e.1 e.2 = .ok ⟨set.entries ++ [(code, d)]⟩ := by
  have hcontains : ¬ set.contains code = true := fun hmem =>
    h.free ((set.contains_iff_mem_keys code).1 hmem)
  simp only [addEntry, h.key, h.inRange, not_true_eq_false, if_false, hcontains, Bool.false_eq_true,
    h.read, Table.insert_of_notMem_keys h.free]

/-- The error of a key that no message can speak of. -/
def keyError (key : Value) : EntryError :=
  match KeyReading.ofValue key with
  | .infinite => .infiniteKey
  | _ => .unprintable

/-- Adding an entry that fails rejects it for its failure, if its key can be named. -/
theorem addEntry_of_fails (h : EntryFails set.keys e f) (hname : e.1.IsNameable) :
    set.addEntry e.1 e.2 = .error (.rejected f) := by
  unfold Value.IsNameable at hname
  cases h with
  | badKey hkey =>
    rw [hkey] at hname
    simp only [addEntry, hkey, naming, hname, if_true]
  | @outOfRange code hkey hrange =>
    rw [hkey] at hname
    simp only [addEntry, hkey, hrange, not_false_eq_true, if_true, naming, hname]
  | @definedTwice code hkey hrange htaken =>
    rw [← Table.contains_iff_mem_keys] at htaken
    simp only [addEntry, hkey, hrange, not_true_eq_false, if_false, htaken, if_true]
  | @invalid code faults hkey hrange hfree hread =>
    rw [← Table.contains_iff_mem_keys] at hfree
    simp only [addEntry, hkey, hrange, not_true_eq_false, if_false, hfree, hread,
      Bool.false_eq_true]

/-- Adding an entry whose key cannot be named ends in the error of that key. -/
theorem addEntry_of_not_isNameable (h : ¬ e.1.IsNameable) :
    set.addEntry e.1 e.2 = .error (keyError e.1) := by
  unfold Value.IsNameable at h
  unfold addEntry keyError
  cases hkey : KeyReading.ofValue e.1 with
  | infinite => rfl
  | notInteger =>
    rw [hkey] at h
    simp only [naming, h, if_false]
  | code code =>
    rw [hkey] at h
    have hrange : ¬ Code.InRange code := fun hrange => h (hasLiteral_of_inRange hrange)
    simp only [hrange, not_false_eq_true, if_true, naming, h, if_false]

/-- Entries that give descriptors are added at the end of the set. -/
theorem addEntries_of_give (h : EntriesGive set.keys es given) :
    addEntries set (es ++ rest) = addEntries ⟨set.entries ++ given⟩ rest := by
  induction es generalizing set given with
  | nil =>
    cases h
    rw [List.nil_append, List.append_nil]
  | cons e es ih =>
    cases h with
    | @cons _ _ _ code d given he hes =>
      have hkeys : Table.keys ⟨set.entries ++ [(code, d)]⟩ = set.keys ++ [code] := by
        simp [Table.keys]
      obtain ⟨key, raw⟩ := e
      rw [List.cons_append, addEntries, addEntry_of_gives he]
      rw [← hkeys] at hes
      simpa using ih hes

/-- The entries before one in error do not matter for the error. -/
theorem addEntries_of_error {err : EntryError} (h : EntriesGive [] es given)
    (herr : addEntry ⟨given⟩ e.1 e.2 = .error err) :
    addEntries .empty (es ++ e :: rest) = .error err := by
  obtain ⟨key, raw⟩ := e
  have hempty : (Table.empty : CommandSet).keys = [] := rfl
  rw [← hempty] at h
  rw [addEntries_of_give h, addEntries]
  simp only [Table.empty, List.nil_append, herr]

/-! ## What loading comes to -/

section Load

variable {data : Value} {source : String} {before : Entries} {err : EntryError}

/-- A dictionary is loaded entry by entry, and an error names the source. -/
theorem load_of_dict (hdata : data.reveal = .dict es) :
    load data source = (addEntries .empty es).mapError (·.inSource source) := by
  unfold load
  rw [hdata]

/-- A dictionary whose entries give descriptors is loaded as these. -/
theorem load_of_give (hdata : data.reveal = .dict es) (h : EntriesGive [] es given) :
    load data source = .ok ⟨given⟩ := by
  have hempty : (Table.empty : CommandSet).keys = [] := rfl
  rw [← hempty] at h
  have hadd : addEntries .empty (es ++ []) = addEntries ⟨[] ++ given⟩ [] := addEntries_of_give h
  rw [List.append_nil] at hadd
  rw [load_of_dict hdata, hadd]
  rfl

/-- A dictionary is rejected at its first entry in error. -/
theorem load_of_error (hdata : data.reveal = .dict (es ++ e :: rest)) (h : EntriesGive [] es given)
    (herr : addEntry ⟨given⟩ e.1 e.2 = .error err) :
    load data source = .error (err.inSource source) := by
  rw [load_of_dict hdata, addEntries_of_error h herr]
  rfl

/-- Loading ends at the first bad entry with its failure, if a message can speak of its key. The
keys before it must be no infinities. -/
theorem load_of_firstBad (hdata : data.reveal = .dict es) (h : es.FirstBad before e f)
    (hbefore : ∀ x ∈ before, KeyReading.ofValue x.1 ≠ .infinite) (hname : e.1.IsNameable) :
    load data source = .error (.rejected source f) := by
  obtain ⟨⟨after, rfl⟩, hgood, hfails⟩ := h
  obtain ⟨given, hgive⟩ := hgood.exists_give hbefore
  have hkeys : (⟨given⟩ : CommandSet).keys = before.codes := hgive.codes_eq.symm
  rw [← hkeys] at hfails
  exact load_of_error hdata hgive (addEntry_of_fails hfails hname)

/-- Loading ends at the first bad entry with an error of its own kind, if its key is read but no
message can speak of it. -/
theorem load_of_firstBad_of_not_isNameable
    (hdata : data.reveal = .dict es) (h : es.FirstBad before e f)
    (hbefore : ∀ x ∈ before, KeyReading.ofValue x.1 ≠ .infinite) (hread : e.1.IsReadable)
    (hname : ¬ e.1.IsNameable) : load data source = .error .unprintable := by
  obtain ⟨⟨after, rfl⟩, hgood, -⟩ := h
  obtain ⟨given, hgive⟩ := hgood.exists_give hbefore
  obtain ⟨hkey, -⟩ := hread.not_isNameable_iff.1 hname
  rw [load_of_error hdata hgive (addEntry_of_not_isNameable hname), keyError, hkey]
  rfl

end Load

end CommandSet

/-- Loading some data comes to an entry with the key: no entry before it is bad. -/
def Value.ComesToKey (data key : Value) : Prop :=
  ∃ before raw after, data.reveal = .dict (before ++ (key, raw) :: after) ∧
    Entries.AreGood before ∧ ∀ e ∈ before, e.1.IsNameable

namespace CommandSet

variable {data : Value} {source : String} {es : Entries} {folder : Folder} {path : Path}

/-- Loading that comes to a key that cannot be named ends there. -/
theorem load_of_comesToKey {key : Value} (source : String) (h : data.ComesToKey key)
    (hname : ¬ key.IsNameable) :
    load data source = .error ((keyError key).inSource source) := by
  obtain ⟨before, raw, after, hdata, hgood, hbefore⟩ := h
  obtain ⟨given, hgive⟩ := hgood.exists_give fun e he => (hbefore e he).ne_infinite
  exact load_of_error hdata hgive (addEntry_of_not_isNameable hname)

/-- A dictionary gives a set, has a first bad entry or has a key that no message can speak of. -/
theorem give_or_firstBad_or_comesToKey (hdata : data.reveal = .dict es) :
    (∃ given, EntriesGive [] es given) ∨
      (∃ before e f, es.FirstBad before e f ∧ (∀ x ∈ before, x.1.IsNameable) ∧ e.1.IsNameable) ∨
      ∃ key, data.ComesToKey key ∧ ¬ key.IsNameable := by
  obtain hgive | ⟨before, e, after, given, rfl, hbefore, hnone⟩ :=
    exists_entriesGive_or_exists_cut [] es
  · exact .inl hgive
  · have hcodes : before.codes = [] ++ given.map (·.1) := hbefore.codes_eq
    rw [← hcodes] at hnone
    by_cases hname : e.1.IsNameable
    · obtain ⟨code, d, hgives⟩ | ⟨f, hfails⟩ :=
        exists_gives_or_exists_fails before.codes hname.ne_infinite
      · exact absurd hgives (hnone code d)
      · exact .inr (.inl ⟨before, e, f, ⟨⟨after, rfl⟩, hbefore.areGood, hfails⟩,
          hbefore.isNameable, hname⟩)
    · have hcomes : data.ComesToKey e.1 :=
        ⟨before, e.2, after, hdata, hbefore.areGood, hbefore.isNameable⟩
      exact .inr (.inr ⟨e.1, hcomes, hname⟩)

/-- Where nothing is written no command is loaded. -/
theorem load_of_null (hdata : data.reveal = .null) : load data source = .ok .empty := by
  unfold load
  rw [hdata]

/-- What is no dictionary is rejected with its kind. -/
theorem load_of_not_dict (hnull : data.reveal ≠ .null) (hdict : ∀ es, data.reveal ≠ .dict es) :
    load data source = .error (.rejected source (.notMapping data.reveal.kindName)) := by
  unfold load
  split
  next h => exact absurd h hnull
  next es h => exact absurd h (hdict es)
  next => rfl

/-- Where a set is loaded from a dictionary every entry has given its descriptor. -/
theorem entriesGive_of_load {set : CommandSet} (hdata : data.reveal = .dict es)
    (h : load data source = .ok set) : EntriesGive [] es set.entries := by
  obtain ⟨given, hgive⟩ | ⟨before, e, f, hbad, hbefore, hname⟩ | ⟨key, hkey, hname⟩ :=
    give_or_firstBad_or_comesToKey hdata
  · cases h.symm.trans (load_of_give hdata hgive)
    exact hgive
  · have hfinite := fun x hx => (hbefore x hx).ne_infinite
    cases h.symm.trans (load_of_firstBad hdata hbad hfinite hname)
  · cases h.symm.trans (load_of_comesToKey source hkey hname)

/-- A set, an error that names the source, or a key that no message can speak of. -/
theorem load_cases (data : Value) (source : String) :
    (∃ set, load data source = .ok set) ∨ (∃ f, load data source = .error (.rejected source f)) ∨
      ∃ key, data.ComesToKey key ∧ ¬ key.IsNameable := by
  by_cases hnull : data.reveal = .null
  · exact .inl ⟨_, load_of_null hnull⟩
  by_cases hdict : ∃ es, data.reveal = .dict es
  · obtain ⟨es, hdata⟩ := hdict
    obtain ⟨given, hgive⟩ | ⟨before, e, f, hbad, hbefore, hname⟩ | hkey :=
      give_or_firstBad_or_comesToKey hdata
    · exact .inl ⟨_, load_of_give hdata hgive⟩
    · have hfinite := fun x hx => (hbefore x hx).ne_infinite
      exact .inr (.inl ⟨f, load_of_firstBad hdata hbad hfinite hname⟩)
    · exact .inr (.inr hkey)
  · exact .inr (.inl ⟨_, load_of_not_dict hnull fun es hdata => hdict ⟨es, hdata⟩⟩)

/-- The error of a key names no source: it is one of the two that loading does not catch. -/
theorem inSource_keyError (key : Value) (source : String) :
    (keyError key).inSource source =
      if KeyReading.ofValue key = .infinite then .infiniteKey else .unprintable := by
  unfold keyError
  cases KeyReading.ofValue key <;> rfl

/-- A key that cannot be named is no ground for rejection. -/
theorem inSource_keyError_ne_rejected (key : Value) (source source' : String) (f : LoadFailure) :
    (keyError key).inSource source ≠ .rejected source' f := by
  rw [inSource_keyError]
  split <;> simp

/-- Loading fails without naming the source only at a key that no message can speak of. -/
theorem names_source_iff (data : Value) (source : String) :
    ((∃ set, load data source = .ok set) ∨ ∃ f, load data source = .error (.rejected source f)) ↔
      ∀ key, data.ComesToKey key → key.IsNameable := by
  constructor
  · intro h key hkey
    by_cases hname : key.IsNameable
    · exact hname
    · have herror := load_of_comesToKey source hkey hname
      obtain ⟨set, hset⟩ | ⟨f, hf⟩ := h
      · cases hset.symm.trans herror
      · have hkeyError := Except.error.inj (herror.symm.trans hf)
        exact absurd hkeyError (inSource_keyError_ne_rejected key source source f)
  · intro h
    obtain hset | hf | ⟨key, hkey, hname⟩ := load_cases data source
    · exact .inl hset
    · exact .inr hf
    · exact absurd (h key hkey) hname

/-- Loading keeps every entry of a dictionary or reports the first that is bad. The entry that
decides is the first bad one by the first check that it fails, and what follows it does not matter.
Where no entry is bad there is one descriptor for each, in their order, under the code of the key
and as it is read from the data. An error names the source, and the code of the entry if its key
gives one. Only where the key of the first bad entry is refused and cannot be shown, for the digits
of an integer in it, the error is another one, which names nothing. -/
theorem load_or_firstBad (data : Value) (source : String) :
    (∀ es : Entries, data.reveal = .dict es →
      (∀ before e f, es.FirstBad before e f → (∀ x ∈ before ++ [e], x.1.IsReadable) →
        f.code? = (KeyReading.ofValue e.1).code? ∧
          (e.1.IsNameable → load data source = .error (.rejected source f)) ∧
          (¬ e.1.IsNameable → load data source = .error .unprintable)) ∧
      ((∀ e ∈ es, e.1.IsReadable) →
        ((∃ set, load data source = .ok set) ↔ es.AreGood) ∧
          (es.AreGood ∨ ∃ before e f, es.FirstBad before e f)) ∧
      ∀ set, load data source = .ok set →
        (es.map fun e => (KeyReading.ofValue e.1, Descriptor.read e.2)) =
            (set.entries.map fun row => (.code row.1, .ok row.2)) ∧
          set.keys.Nodup) ∧
    (data.reveal = .null → load data source = .ok .empty) ∧
    (data.reveal ≠ .null → (∀ es, data.reveal ≠ .dict es) →
      load data source = .error (.rejected source (.notMapping data.reveal.kindName))) := by
  refine ⟨fun es hdata => ⟨?_, ?_, ?_⟩, load_of_null, load_of_not_dict⟩
  · intro before e f hbad hread
    have hbefore : ∀ x ∈ before, KeyReading.ofValue x.1 ≠ .infinite :=
      fun x hx => (hread x (by simp [hx])).ne_infinite
    exact ⟨hbad.fails.code?_eq, load_of_firstBad hdata hbad hbefore,
      load_of_firstBad_of_not_isNameable hdata hbad hbefore (hread e (by simp))⟩
  · intro hread
    have hfinite : ∀ e ∈ es, KeyReading.ofValue e.1 ≠ .infinite :=
      fun e he => (hread e he).ne_infinite
    refine ⟨⟨?_, ?_⟩, ?_⟩
    · rintro ⟨set, hset⟩
      exact (entriesGive_of_load hdata hset).areGood
    · intro hgood
      obtain ⟨given, hgive⟩ := hgood.exists_give hfinite
      exact ⟨_, load_of_give hdata hgive⟩
    · exact (exists_give_or_exists_firstBad hfinite).imp_left fun ⟨_, hgive⟩ => hgive.areGood
  · intro set hset
    have hgive := entriesGive_of_load hdata hset
    exact ⟨hgive.map_eq, hgive.nodup List.nodup_nil⟩

/-- Two entries whose keys are a text with blanks and a truth value. -/
def goodSample : Entries :=
  [(.str " 7 ", .record [("name", .str "A"), ("kind", .tagged "Blank" [])]),
    (.bool true,
      .record [("name", .str "B"), ("kind", .tagged "Multi" [("continuation", .int 2)])])]

/-- The first bad entry has a code that is taken and data that is no record; an infinity follows
it. -/
def badSample : Entries :=
  goodSample ++ [(.float (.ofInt 7), .null), (.float (.infinity false), .null)]

/-- An entry whose data is a descriptor and whose key is a tuple, which stands for no integer. The
tuple holds the least integer with too many digits. -/
def unprintableEntry : Value × Value :=
  (.tuple [.int (Nat.pow 10 Text.maxDigits)],
    .record [("name", .str "A"), ("kind", .tagged "Blank" [])])

/-- The key of this entry is refused as a key, which is one of the ways in which a key may be
read. -/
theorem isReadable_unprintableEntry : unprintableEntry.1.IsReadable :=
  trivial

/-- No message can show the key of this entry. -/
theorem not_isNameable_unprintableEntry : ¬ unprintableEntry.1.IsNameable := by
  rw [isReadable_unprintableEntry.not_isNameable_iff]
  refine ⟨rfl, ?_⟩
  simp only [unprintableEntry, Value.hasLiteral, Value.haveLiterals, Int.natAbs_natCast,
    Nat.lt_irrefl, decide_false, Bool.false_and]

/-- Standing alone the entry is the first bad one, for its key. -/
theorem firstBad_unprintableEntry :
    Entries.FirstBad [unprintableEntry] [] unprintableEntry (.badKey unprintableEntry.1) :=
  ⟨⟨[], rfl⟩, EntriesGive.nil.areGood, .badKey rfl⟩

/-- A dictionary that is rejected at its third entry, one that is loaded, one that ends at a key
that cannot be named, and what is no dictionary. -/
theorem load_or_firstBad_sample :
    (badSample.FirstBad goodSample (.float (.ofInt 7), .null) (.definedTwice 7) ∧
      load (.dict badSample) "a" = .error (.rejected "a" (.definedTwice 7))) ∧
    (goodSample.AreGood ∧ ∃ set, load (.dict goodSample) "a" = .ok set ∧ set.keys.Nodup) ∧
    load (.dict [unprintableEntry]) "a" = .error .unprintable ∧
    load .null "a" = .ok .empty ∧
    load (.int 3) "a" = .error (.rejected "a" (.notMapping "int")) := by
  have hgive : EntriesGive [] goodSample
      [(7, ⟨.str "A", .mark⟩), (1, ⟨.str "B", .text (.int 2)⟩)] :=
    .cons ⟨rfl, by decide, by decide, rfl⟩ (.cons ⟨rfl, by decide, by decide, rfl⟩ .nil)
  have hbad : badSample.FirstBad goodSample (.float (.ofInt 7), .null) (.definedTwice 7) :=
    ⟨⟨_, rfl⟩, hgive.areGood, .definedTwice rfl (by decide) (by rw [hgive.codes_eq]; decide)⟩
  have hread : ∀ x ∈ goodSample ++ [(.float (.ofInt 7), .null)], x.1.IsReadable := by
    intro x hx
    obtain hx | hx := List.mem_append.1 hx
    · exact (hgive.isNameable x hx).isReadable
    · rw [List.mem_singleton.1 hx]
      exact hasLiteral_of_inRange (n := 7) (by decide)
  have hgood := (load_or_firstBad (.dict goodSample) "a").1 goodSample rfl
  obtain ⟨set, hset⟩ := (hgood.2.1 fun x hx => hread x (by simp [hx])).1.2 hgive.areGood
  have hunread := (load_or_firstBad (.dict [unprintableEntry]) "a").1 [unprintableEntry] rfl
  refine ⟨⟨hbad, ?_⟩, ⟨hgive.areGood, set, hset, (hgood.2.2 set hset).2⟩, ?_, ?_, ?_⟩
  · refine (((load_or_firstBad (.dict badSample) "a").1 badSample rfl).1 _ _ _ hbad hread).2.1 ?_
    exact hasLiteral_of_inRange (n := 7) (by decide)
  · refine (hunread.1 _ _ _ firstBad_unprintableEntry ?_).2.2 not_isNameable_unprintableEntry
    simpa using isReadable_unprintableEntry
  · exact (load_or_firstBad .null "a").2.1 rfl
  · exact (load_or_firstBad (.int 3) "a").2.2 (by simp [Value.reveal]) (by simp [Value.reveal])

/-- An error does not always name the source, not even where every key is read as an integer that
has a numeral or is refused as a key. -/
theorem not_forall_load_firstBad_rejected :
    ¬ ∀ (es before : Entries) (e : Value × Value) (f : LoadFailure) (source : String),
      (∀ x ∈ es, x.1.IsReadable) → es.FirstBad before e f →
        load (.dict es) source = .error (.rejected source f) := by
  intro h
  have hread : ∀ x ∈ [unprintableEntry], x.1.IsReadable := by
    simpa using isReadable_unprintableEntry
  have hrejected := h _ _ _ _ "a" hread firstBad_unprintableEntry
  have hload : load (.dict [unprintableEntry]) "a" = .error .unprintable :=
    load_of_firstBad_of_not_isNameable rfl firstBad_unprintableEntry (by simp)
      isReadable_unprintableEntry not_isNameable_unprintableEntry
  cases hload.symm.trans hrejected

/-- No code is twice in what is loaded. -/
theorem nodup_keys_of_load {set : CommandSet} (h : load data source = .ok set) :
    set.keys.Nodup := by
  by_cases hnull : data.reveal = .null
  · cases h.symm.trans (load_of_null hnull)
    exact List.nodup_nil
  by_cases hdict : ∃ es, data.reveal = .dict es
  · obtain ⟨es, hdata⟩ := hdict
    exact (entriesGive_of_load hdata h).nodup List.nodup_nil
  · cases h.symm.trans (load_of_not_dict hnull fun es hdata => hdict ⟨es, hdata⟩)

/-- An error that does not name the source is that of the key at which loading ends. -/
theorem load_eq_error_iff {err : LoadError} (herr : ∀ source' f, err ≠ .rejected source' f) :
    load data source = .error err ↔
      ∃ key, data.ComesToKey key ∧ ¬ key.IsNameable ∧ (keyError key).inSource source = err := by
  constructor
  · intro h
    obtain ⟨set, hset⟩ | ⟨f, hf⟩ | ⟨key, hkey, hname⟩ := load_cases data source
    · cases hset.symm.trans h
    · exact absurd (Except.error.inj (h.symm.trans hf)) (herr source f)
    · have herror := load_of_comesToKey source hkey hname
      exact ⟨key, hkey, hname, Except.error.inj (herror.symm.trans h)⟩
  · rintro ⟨key, hkey, hname, rfl⟩
    exact load_of_comesToKey source hkey hname

/-- Loading ends in the error of infinite keys exactly if it comes to one. -/
theorem load_eq_infiniteKey_iff :
    load data source = .error .infiniteKey ↔
      ∃ key, data.ComesToKey key ∧ KeyReading.ofValue key = .infinite := by
  rw [load_eq_error_iff (by simp)]
  refine exists_congr fun key => and_congr_right fun _ => ?_
  rw [inSource_keyError, Value.IsNameable]
  cases KeyReading.ofValue key <;> simp

/-- Loading ends in the error of texts that cannot be written exactly if it comes to a finite key
that cannot be named. -/
theorem load_eq_unprintable_iff :
    load data source = .error .unprintable ↔
      ∃ key, data.ComesToKey key ∧ ¬ key.IsNameable ∧ KeyReading.ofValue key ≠ .infinite := by
  rw [load_eq_error_iff (by simp)]
  refine exists_congr fun key => and_congr_right fun _ => and_congr_right fun _ => ?_
  rw [inSource_keyError]
  split <;> simp [*]

/-! ### In files -/

/-- A file whose text is read as a value is loaded as that value is, with its path as the source. -/
theorem loadFile_of_value {bytes : FileContent} {v : Value} (hread : folder.read path = .ok bytes)
    (hvalue : Yaml.load (.ofBytes bytes) = .ok v) :
    loadFile folder path = (load v path.text).mapError .data := by
  unfold loadFile
  rw [hread]
  simp only [hvalue]

/-- A file gives a set or an error that names its path exactly when it can be read, its text is
refused as a whole or read as a value, and the value is loaded so. -/
theorem loadFile_names_source_iff :
    ((∃ set, loadFile folder path = .ok set) ∨
        ∃ f, loadFile folder path = .error (.data (.rejected path.text f))) ↔
      ∃ bytes, folder.read path = .ok bytes ∧
        (Yaml.load (.ofBytes bytes) = .error .malformed ∨
          ∃ v, Yaml.load (.ofBytes bytes) = .ok v ∧ ∀ key, v.ComesToKey key → key.IsNameable) := by
  cases hread : folder.read path with
  | error e => simp [loadFile, hread]
  | ok bytes =>
    simp only [Except.ok.injEq, exists_eq_left']
    cases hvalue : Yaml.load (.ofBytes bytes) with
    | error e => cases e <;> simp [loadFile, hread, hvalue]
    | ok v =>
      have hfile := loadFile_of_value hread hvalue
      simp only [Except.ok.injEq, exists_eq_left', reduceCtorEq, false_or,
        ← names_source_iff v path.text]
      cases hload : load v path.text with
      | error err =>
        have herror : loadFile folder path = .error (.data err) := by rw [hfile, hload]; rfl
        simp [herror]
      | ok set =>
        have hok : loadFile folder path = .ok set := by rw [hfile, hload]; rfl
        simp [hok]

/-- Loading gives a set or an error that names the source, from data and from files, exactly where
no key that it comes to is an infinity or too long for a message. It comes to a key when no entry
before that one is bad. The error of such a key is of one of two kinds, which tell why no message
can speak of it. -/
theorem load_names_source (data : Value) (source : String) (folder : Folder) (path : Path) :
    (((∃ set, load data source = .ok set) ∨
        ∃ f, load data source = .error (.rejected source f)) ↔
      ∀ key, data.ComesToKey key → key.IsNameable) ∧
    (load data source = .error .infiniteKey ↔
      ∃ key, data.ComesToKey key ∧ KeyReading.ofValue key = .infinite) ∧
    (load data source = .error .unprintable ↔
      ∃ key, data.ComesToKey key ∧ ¬ key.IsNameable ∧ KeyReading.ofValue key ≠ .infinite) ∧
    (((∃ set, loadFile folder path = .ok set) ∨
        ∃ f, loadFile folder path = .error (.data (.rejected path.text f))) ↔
      ∃ bytes, folder.read path = .ok bytes ∧
        (Yaml.load (.ofBytes bytes) = .error .malformed ∨
          ∃ v, Yaml.load (.ofBytes bytes) = .ok v ∧ ∀ key, v.ComesToKey key → key.IsNameable)) :=
  ⟨names_source_iff data source, load_eq_infiniteKey_iff, load_eq_unprintable_iff,
    loadFile_names_source_iff⟩

/-- There is data for which loading gives neither a set nor an error that names the source: its
first key is an infinity. -/
theorem not_forall_load_names_source :
    ¬ ∀ (data : Value) (source : String), (∃ set, load data source = .ok set) ∨
      ∃ f, load data source = .error (.rejected source f) := by
  intro h
  have hload : load (.dict [(.float (.infinity false),
      .record [("name", .str "A"), ("kind", .tagged "Blank" [])])]) "<dict>" =
    .error .infiniteKey := rfl
  obtain ⟨set, hset⟩ | ⟨f, hf⟩ := h _ "<dict>"
  · cases hset.symm.trans hload
  · cases hf.symm.trans hload

end CommandSet

end PageOutline
