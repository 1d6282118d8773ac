import PageOutline.Settings.File
import PageOutline.Proofs.Faults
import PageOutline.Proofs.Paths

/-!
# Settings files

What a settings file comes to is described by `ofDocument`: a mapping gives the settings in it, null
the default ones, and nothing else gives any. Reading a file does so except in two places, where the
document is looked at before it is checked: one that counts as false is taken for an empty mapping,
and the path of the project's commands is joined to the folder of the file before anything says that
it is a path.
-/

namespace PageOutline

open Schema

namespace Value

/-- Nothing but a text itself equals it. -/
theorem sameValue_str_iff {v : Value} {key : String} :
    sameValue v (.str key) = true ↔ v = .str key := by
  cases v <;> simp [sameValue]

/-- Giving a text key a value changes what is found under this key and nothing else. -/
theorem lookup?_setEntry (key name : String) (v : Value) (es : Entries) :
    lookup? (setEntry (.str key) v es) name = if key = name then some v else lookup? es name := by
  induction es with
  | nil => exact lookup?_cons_str key name v []
  | cons e es ih =>
    obtain ⟨k, w⟩ := e
    unfold setEntry
    by_cases hk : k = .str key
    · rw [if_pos (sameValue_str_iff.2 hk), hk, lookup?_cons_str, lookup?_cons_str]
      split <;> rfl
    · rw [if_neg fun hsame => hk (sameValue_str_iff.1 hsame)]
      by_cases hname : k = .str name
      · have hne : key ≠ name := fun heq => hk (by rw [hname, heq])
        rw [hname, lookup?_cons_str, lookup?_cons_str, if_pos rfl, if_pos rfl, if_neg hne]
      · rw [lookup?_cons_of_ne hname, lookup?_cons_of_ne hname, ih]

end Value

namespace Schema

variable {α β γ : Type}

/-- Two checks in one succeed if each of them does. -/
theorem Checked.exists_both_iff {x : Checked α} {y : Checked β} :
    (∃ p, x.both y = .ok p) ↔ (∃ a, x = .ok a) ∧ ∃ b, y = .ok b := by
  simp [Checked.both_eq_ok_iff]

/-- A value that is put together from two checks is there if both succeed. -/
theorem Checked.exists_map2_iff {f : α → β → γ} {x : Checked α} {y : Checked β} :
    (∃ c, x.map2 f y = .ok c) ↔ (∃ a, x = .ok a) ∧ ∃ b, y = .ok b := by
  constructor
  · rintro ⟨c, hc⟩
    obtain ⟨a, b, hx, hy, -⟩ := Checked.map2_eq_ok_iff.1 hc
    exact ⟨⟨a, hx⟩, b, hy⟩
  · rintro ⟨⟨a, hx⟩, b, hy⟩
    exact ⟨f a b, Checked.map2_eq_ok_iff.2 ⟨a, b, hx, hy, rfl⟩⟩

/-- A field that may be absent is read whenever its value is. -/
theorem exists_optional_iff {es : Entries} {name : String} {absent : α} {read : Reader α} :
    (∃ a, es.optional name absent read = .ok a) ↔
      ∀ v, Value.lookup? es name = some v → ∃ a, read v = .ok a := by
  unfold Entries.optional
  cases Value.lookup? es name with
  | none => simp
  | some v => simp [Checked.under_eq_ok_iff]

/-- A choice is read from the names that it has and from nothing else. -/
theorem exists_readChoice_iff {choices : List (String × α)} {v : Value} :
    (∃ a, readChoice choices v = .ok a) ↔ ∃ name ∈ choices.map (·.1), v = .str name := by
  cases v with
  | str s =>
    simp only [readChoice, Value.str.injEq, exists_eq_right']
    cases hlookup : choices.lookup s with
    | none =>
      have hnone : s ∉ choices.map (·.1) := by
        rintro hmem
        obtain ⟨choice, hchoice, rfl⟩ := List.mem_map.1 hmem
        have hne := List.lookup_eq_none_iff.1 hlookup choice hchoice
        simp at hne
      simpa [Checked.fault] using hnone
    | some a =>
      obtain ⟨before, after, rfl, -⟩ := List.lookup_eq_some_iff.1 hlookup
      simp
  | _ => simp [readChoice, Checked.fault]

/-- What may be null is read from null and from what it is read from otherwise. -/
theorem exists_readOptional_iff {read : Reader α} {v : Value} :
    (∃ a, readOptional read v = .ok a) ↔ v = .null ∨ ∃ a, read v = .ok a := by
  cases v <;> simp [readOptional, Checked.map_eq_ok_iff]

end Schema

/-- A path is read from texts alone. -/
theorem exists_readPath_iff {v : Value} : (∃ p, readPath v = .ok p) ↔ ∃ s, v = .str s := by
  cases v <;> simp [readPath, Checked.fault]

namespace Settings

/-! ### Settings in a mapping -/

/-- The recognised fields that are there have values that they may have. -/
structure Valid (es : Entries) : Prop where
  engine : ∀ v, Value.lookup? es "engine_version" = some v →
    ∃ name ∈ ["XP", "VX", "Ace"], v = .str name
  matching : ∀ v, Value.lookup? es "branch_matching" = some v →
    ∃ name ∈ ["code", "parameter"], v = .str name
  commands : ∀ v, Value.lookup? es "user_commands" = some v → v = .null ∨ ∃ s, v = .str s
  logging : ∀ v, Value.lookup? es "log_unknown_codes" = some v → ∃ b, readFlag v = .ok b

/-- The settings, each with the faults that its value has. -/
def fields : List FieldFaults := [
  optionalFaults "engine_version"
    (readChoice [("XP", EngineVersion.xp), ("VX", .vx), ("Ace", .ace)]),
  optionalFaults "branch_matching"
    (readChoice [("code", Matching.code), ("parameter", .parameter)]),
  optionalFaults "user_commands" (readOptional readPath),
  optionalFaults "log_unknown_codes" readFlag]

variable {es : Entries} {source : String}

/-- The settings are read field by field, with the faults of the fields in order. -/
theorem readsFields_ofEntries : ReadsFields ofEntries fields :=
  .map2 (.both (readsFields_optional _ _ _) (readsFields_optional _ _ _))
    (.both (readsFields_optional _ _ _) (readsFields_optional _ _ _)) _

/-- The settings are read exactly where the fields that are there have values that they may have. -/
theorem exists_ofEntries_iff : (∃ s, ofEntries es = .ok s) ↔ Valid es := by
  rw [ofEntries, Checked.exists_map2_iff, Checked.exists_both_iff, Checked.exists_both_iff]
  simp only [exists_optional_iff, exists_readChoice_iff, exists_readOptional_iff,
    exists_readPath_iff]
  constructor
  · rintro ⟨⟨hengine, hmatching⟩, hcommands, hlogging⟩
    exact ⟨hengine, hmatching, hcommands, hlogging⟩
  · rintro ⟨hengine, hmatching, hcommands, hlogging⟩
    exact ⟨⟨hengine, hmatching⟩, hcommands, hlogging⟩

/-- Valid fields give settings. -/
theorem exists_load_of_valid (h : Valid es) (source : String) : ∃ s, load es source = .ok s := by
  obtain ⟨s, hs⟩ := exists_ofEntries_iff.2 h
  exact ⟨s, by rw [load, hs]⟩

/-- Otherwise the source is named, with the faults of all fields in their order. -/
theorem load_of_not_valid (h : ¬Valid es) (source : String) :
    load es source = .error ⟨source, .invalid
      (fields.flatMap fun field => field.2 (Value.lookup? es field.1))⟩ := by
  have hfaults := readsFields_ofEntries es
  cases hread : ofEntries es with
  | ok s => exact absurd (exists_ofEntries_iff.1 ⟨s, hread⟩) h
  | faulty faults =>
    rw [hread, Checked.faults_faulty] at hfaults
    rw [load, hread, ← hfaults]

/-! ### Settings in a file -/

/-- The settings with the path of the project's commands seen from where a file is. -/
def seenFrom (file : Path) (s : Settings) : Settings :=
  { s with userCommands? := s.userCommands?.map file.parent.join }

/-- What the document in a settings file should come to. -/
def ofDocument (file : Path) : Value → Except SettingsError Settings
  | .null => .ok default
  | .dict es => (load es file.text).map (seenFrom file)
  | _ => .error ⟨file.text, .notMapping⟩

variable {folder : Folder} {file : Path} {bytes : FileContent} {v : Value}

/-- The settings of a mapping's fields other than the path of the project's commands. -/
def ofOthers (es : Entries) : Checked Settings :=
  Checked.map2 (fun (engine, matching) logsUnknown => ⟨engine, matching, none, logsUnknown⟩)
    ((es.optional "engine_version" default.engine
        (readChoice [("XP", .xp), ("VX", .vx), ("Ace", .ace)])).both
      (es.optional "branch_matching" default.matching
        (readChoice [("code", .code), ("parameter", .parameter)])))
    (es.optional "log_unknown_codes" default.logsUnknown readFlag)

/-- Once the path of the project's commands is read, the settings depend on the other fields. -/
theorem ofEntries_of_commands {commands? : Option Path}
    (h : es.optional "user_commands" default.userCommands? (readOptional readPath) =
      .ok commands?) :
    ofEntries es = (ofOthers es).map fun s => { s with userCommands? := commands? } := by
  rw [ofEntries, ofOthers, h]
  generalize (es.optional "engine_version" default.engine _).both _ = versions
  generalize es.optional "log_unknown_codes" default.logsUnknown readFlag = logging
  cases versions <;> cases logging <;> rfl

/-- The other fields do not depend on the path of the project's commands. -/
theorem ofOthers_setEntry (v : Value) (es : Entries) :
    ofOthers (Value.setEntry (.str "user_commands") v es) = ofOthers es := by
  simp [ofOthers, Entries.optional, Value.lookup?_setEntry]

/-- A mapping in which the path of the project's commands was put down as a text. -/
theorem ofEntries_setEntry (text : String) (es : Entries) :
    ofEntries (Value.setEntry (.str "user_commands") (.str text) es) =
      (ofOthers es).map fun s => { s with userCommands? := some (.ofText text) } := by
  rw [ofEntries_of_commands, ofOthers_setEntry]
  simp [Entries.optional, Value.lookup?_setEntry, readOptional, readPath]

/-- What changes the settings that are read changes those that are loaded. -/
theorem load_map_of_ofEntries {es' : Entries} {f : Settings → Settings}
    (h : ofEntries es' = (ofEntries es).map f) (source : String) :
    load es' source = (load es source).map f := by
  unfold load
  rw [h]
  cases ofEntries es <;> rfl

/-- The path of the project's commands put down as it is seen from the file. -/
theorem load_setEntry_joined (hfile : file.Clean) {es' : Entries} {text : String}
    (hread : ofEntries es' =
      (ofOthers es).map fun s => { s with userCommands? := some (.ofText text) })
    (source : String) :
    load (Value.setEntry (.str "user_commands") (.str (file.parent.join (.ofText text)).text) es)
        source = (load es' source).map (seenFrom file) := by
  have hjoined : Path.ofText (file.parent.join (.ofText text)).text =
      file.parent.join (.ofText text) :=
    (hfile.parent.join (Path.clean_ofText text)).ofText_text
  refine load_map_of_ofEntries ?_ source
  rw [ofEntries_setEntry, hread, hjoined]
  cases ofOthers es <;> rfl

/-! ### What the path of the project's commands is taken from -/

/-- Whether a path is taken from a value, or none at all, as the settings have it. -/
def TakesPath : Value → Prop
  | .null => True
  | .str _ => True
  | .points ps => ps.head? = some '/'.toNat
  | _ => False

/-- Where no commands are named, it does not matter where the file is. -/
theorem load_map_seenFrom_of_none
    (h : es.optional "user_commands" default.userCommands? (readOptional readPath) = .ok none)
    (source : String) : (load es source).map (seenFrom file) = load es source := by
  refine (load_map_of_ofEntries ?_ source).symm
  rw [ofEntries_of_commands h]
  cases ofOthers es <;> rfl

/-- A mapping from which the path can be taken gives the settings in it, seen from the file. -/
theorem resolved_of_takesPath (hfile : file.Clean)
    (h : ∀ w, Value.lookup? es "user_commands" = some w → TakesPath w) :
    ∃ es', resolveCommands file es = .ok es' ∧
      load es' file.text = (load es file.text).map (seenFrom file) := by
  cases hcommands : Value.lookup? es "user_commands" with
  | none =>
    have hnone : es.optional "user_commands" default.userCommands? (readOptional readPath) =
        .ok none := by
      simp [Entries.optional, hcommands, default]
    exact ⟨es, by simp [resolveCommands, hcommands], (load_map_seenFrom_of_none hnone _).symm⟩
  | some w =>
    have htakes := h w hcommands
    cases w with
    | null =>
      have hnone : es.optional "user_commands" default.userCommands? (readOptional readPath) =
          .ok none := by
        simp [Entries.optional, hcommands, readOptional]
      exact ⟨es, by simp [resolveCommands, hcommands], (load_map_seenFrom_of_none hnone _).symm⟩
    | str text =>
      have hread : es.optional "user_commands" default.userCommands? (readOptional readPath) =
          .ok (some (.ofText text)) := by
        simp [Entries.optional, hcommands, readOptional, readPath]
      exact ⟨_, by rw [resolveCommands, hcommands],
        load_setEntry_joined hfile (ofEntries_of_commands hread) _⟩
    | points ps =>
      have hinvalid : ¬Valid es := fun hvalid => by
        rcases hvalid.commands _ hcommands with heq | ⟨text, heq⟩ <;> cases heq
      have hresolved : resolveCommands file es = .ok es := by
        rw [resolveCommands, hcommands]
        exact if_pos htakes
      refine ⟨es, hresolved, ?_⟩
      rw [load_of_not_valid hinvalid]
      rfl
    | _ => exact htakes.elim

/-- From a relative text with surrogates the path is taken as if it had other characters there. -/
theorem resolved_of_points (hfile : file.Clean) {ps : List Nat}
    (hcommands : Value.lookup? es "user_commands" = some (.points ps))
    (hrelative : ps.head? ≠ some '/'.toNat) :
    let text := String.ofList (Text.charsOfPoints ps)
    ∃ es', resolveCommands file es = .ok es' ∧
      load es' file.text =
        (load (Value.setEntry (.str "user_commands") (.str text) es) file.text).map
          (seenFrom file) := by
  intro text
  refine ⟨_, ?_, load_setEntry_joined hfile (ofEntries_setEntry text es) file.text⟩
  rw [resolveCommands, hcommands]
  exact if_neg hrelative

/-- A path can be taken from nothing but a text. -/
theorem resolved_of_not_text {w : Value}
    (hcommands : Value.lookup? es "user_commands" = some w) (hnull : w ≠ .null)
    (htext : w.textPoints? = none) : resolveCommands file es = .error .notPath := by
  rw [resolveCommands, hcommands]
  cases w <;> first | rfl | exact absurd rfl hnull | cases htext

/-! ### Documents -/

/-- Documents that come to what they should: null, what counts as true and is no mapping, and
mappings from which the path of the project's commands can be taken. -/
def Regular : Value → Prop
  | .null => True
  | .dict es => ∀ w, Value.lookup? es "user_commands" = some w → TakesPath w
  | v => v.isTruthy = true

/-- A mapping whose path cannot be put in place ends loading before its fields are looked at. -/
theorem loadFile_of_stopped (hread : folder.read file = .ok bytes)
    (hvalue : Yaml.load (.ofBytes bytes) = .ok v) (hdict : v.reveal = .dict es)
    {e : SettingsFileError} (hresolved : resolveCommands file es = .error e) :
    loadFile folder file = .error e := by
  have hdocument : (Yaml.load (.ofBytes bytes)).map Value.reveal = .ok (.dict es) := by
    rw [hvalue, ← hdict]
    rfl
  simp only [loadFile, hread, hdocument, hresolved]

/-- A mapping whose path gives no reason to stop is loaded with the path put in place. -/
theorem loadFile_of_resolved (hread : folder.read file = .ok bytes)
    (hvalue : Yaml.load (.ofBytes bytes) = .ok v) (hdict : v.reveal = .dict es)
    {es' es'' : Entries} (hresolved : resolveCommands file es = .ok es')
    (hload : load es' file.text = (load es'' file.text).map (seenFrom file)) :
    loadFile folder file = (ofDocument file (.dict es'')).mapError .data := by
  have hdocument : (Yaml.load (.ofBytes bytes)).map Value.reveal = .ok (.dict es) := by
    rw [hvalue, ← hdict]
    rfl
  simp only [loadFile, hread, hdocument, hresolved, hload, ofDocument]

/-- What is no mapping is refused if it counts as true, and gives the default settings if not. -/
theorem loadFile_of_not_dict (hread : folder.read file = .ok bytes)
    (hvalue : Yaml.load (.ofBytes bytes) = .ok v) (hdict : ∀ es, v.reveal ≠ .dict es) :
    loadFile folder file =
      if v.reveal.isTruthy then .error (.data ⟨file.text, .notMapping⟩) else .ok default := by
  have hdocument : (Yaml.load (.ofBytes bytes)).map Value.reveal = .ok v.reveal := by
    rw [hvalue]
    rfl
  simp only [loadFile, hread, hdocument]

/-- Whether a text was read as a mapping that names the project's commands by a number. -/
def namesNumber (n : Int) : Except YamlError Value → Bool
  | .ok (.dict [(.str key, .int i)]) => key == "user_commands" && i == n
  | _ => false

/-- The test finds just this mapping. -/
theorem eq_of_namesNumber {n : Int} {value : Except YamlError Value}
    (h : namesNumber n value = true) : value = .ok (.dict [(.str "user_commands", .int n)]) := by
  unfold namesNumber at h
  split at h
  · rw [Bool.and_eq_true, beq_iff_eq, beq_iff_eq] at h
    rw [h.1, h.2]
  · cases h

end Settings

end PageOutline
