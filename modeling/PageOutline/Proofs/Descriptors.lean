import PageOutline.Proofs.Schema
import PageOutline.Descriptor.Reader

/-!
# Descriptors read back

A descriptor that is written out with all its fields is read as itself, and whatever data a
descriptor is read from, it is one that can be written out and read back. The names of a descriptor
are then texts and its codes are codes; positions are natural numbers by their type.
-/

namespace PageOutline

open Schema

/-! ### Layouts of parameters -/

/-- A record that has a tag and nothing else is read as what the tag stands for. -/
theorem readBare_tagged {α : Type} (tag : String) (a : α) :
    readBare tag a (.tagged tag []) = .ok a := by
  refine record_record rfl ?_
  rw [tag_ofFields, Checked.map_ok]

/-- What is written of a layout's part is a dictionary, never a knot. -/
theorem Parameter.knotId?_dump (p : Parameter) : p.dump.knotId? = none := by
  cases p <;> rfl

/-- A part that is no knot is read by the reader of the level below. -/
theorem Parameter.readAt_succ {n : Nat} {outer : List Nat} {v : Value} (hv : v.knotId? = none) :
    Parameter.readAt (n + 1) outer v =
      Parameter.readWith (Parameter.readField (Parameter.readAt n outer)) v := by
  simp [Parameter.readAt, hv]

mutual

/-- The reader of a level reads back every kind that is written in that many parts. -/
theorem ParameterKind.readWith_dump :
    ∀ (k : ParameterKind) (n : Nat) (outer : List Nat), k.dump.size ≤ n →
      ParameterKind.readWith (Parameter.readAt n outer) k.dump = .ok k
  | .switch, _, _, _ => tagged_tagged [] rfl (readBare_tagged _ _)
  | .variable, _, _, _ => tagged_tagged [] rfl (readBare_tagged _ _)
  | .choice values, _, _, _ => by
    refine tagged_tagged _ rfl ?_
    have hvalues := readList_recovers readText_recovers values fun _ _ => trivial
    refine record_record rfl ?_
    rw [tag_ofFields, required_ofFields rfl hvalues, Checked.map2_ok]
  | .selector options, n, outer, hsize => by
    refine tagged_tagged _ rfl ?_
    have hoptions : readList (readList (Parameter.readAt n outer)) (.list (dumpLayouts options)) =
        .ok options := readItems_dumpLayouts options 0 n outer (by
      simp [ParameterKind.dump, Value.tagged, Value.record, Value.size, Value.entrySizes] at hsize
      omega)
    refine record_record rfl ?_
    rw [tag_ofFields, required_ofFields rfl hoptions, Checked.map2_ok]
  | .selfSwitch, _, _, _ => tagged_tagged [] rfl (readBare_tagged _ _)
  | .intBool, _, _, _ => tagged_tagged [] rfl (readBare_tagged _ _)
  | .bool, _, _, _ => tagged_tagged [] rfl (readBare_tagged _ _)
  | .int, _, _, _ => tagged_tagged [] rfl (readBare_tagged _ _)

/-- The reader of a level reads back every part of a layout that is written in that many parts. -/
theorem Parameter.readAt_dump :
    ∀ (p : Parameter) (n : Nat) (outer : List Nat), p.dump.size ≤ n →
      Parameter.readAt n outer p.dump = .ok p
  | p, 0, _, hsize => absurd hsize (Nat.not_le.2 (Value.size_pos p.dump))
  | .field index name kind, n + 1, outer, hsize => by
    have hindex := readNat_recovers index trivial
    have hname := readText_recovers name trivial
    have hkind := ParameterKind.readWith_dump kind n outer (by
      simp [Parameter.dump, Value.tagged, Value.record, Value.size, Value.entrySizes] at hsize
      omega)
    rw [Parameter.readAt_succ (Parameter.knotId?_dump _)]
    refine tagged_tagged _ rfl (record_record rfl ?_)
    rw [tag_ofFields, required_ofFields rfl hindex, required_ofFields rfl hname,
      required_ofFields rfl hkind]
    rfl
  | .label text, n + 1, outer, _ => by
    have htext := readText_recovers text trivial
    rw [Parameter.readAt_succ (Parameter.knotId?_dump _)]
    refine tagged_tagged _ rfl (record_record rfl ?_)
    rw [tag_ofFields, required_ofFields rfl htext, Checked.map2_ok]

/-- The parts of a layout are read back one by one. -/
theorem readItems_dumpLayout :
    ∀ (ps : List Parameter) (start n : Nat) (outer : List Nat),
      Value.sizes (dumpLayout ps) ≤ n →
        readItems (Parameter.readAt n outer) start (dumpLayout ps) = .ok ps
  | [], _, _, _, _ => rfl
  | p :: ps, start, n, outer, hsize => by
    simp only [dumpLayout, Value.sizes] at hsize
    have hhead := Parameter.readAt_dump p n outer (by omega)
    have htail := readItems_dumpLayout ps (start + 1) n outer (by omega)
    rw [dumpLayout, readItems, hhead, htail]
    rfl

/-- The layouts of a selector are read back one by one. -/
theorem readItems_dumpLayouts :
    ∀ (ls : List (List Parameter)) (start n : Nat) (outer : List Nat),
      Value.sizes (dumpLayouts ls) ≤ n →
        readItems (readList (Parameter.readAt n outer)) start (dumpLayouts ls) = .ok ls
  | [], _, _, _, _ => rfl
  | l :: ls, start, n, outer, hsize => by
    simp only [dumpLayouts, Value.sizes, Value.size] at hsize
    have hhead : readList (Parameter.readAt n outer) (.list (dumpLayout l)) = .ok l :=
      readItems_dumpLayout l 0 n outer (by omega)
    have htail := readItems_dumpLayouts ls (start + 1) n outer (by omega)
    rw [dumpLayouts, readItems, hhead, htail]
    rfl

end

/-- Every part of a layout is read back from what it is written as. -/
theorem Parameter.read_recovers : Parameter.read.Recovers Parameter.dump fun _ => True :=
  fun p _ => Parameter.readAt_dump p p.dump.size [] (Nat.le_refl _)

/-- A layout is written part by part. -/
theorem dumpLayout_eq_map (ps : List Parameter) : dumpLayout ps = ps.map Parameter.dump := by
  induction ps with
  | nil => rfl
  | cons p ps ih => rw [dumpLayout, ih, List.map_cons]

/-- Every layout is read back from what it is written as. -/
theorem readLayout_recovers :
    (readList Parameter.read).Recovers (fun ps => .list (dumpLayout ps)) fun _ => True := by
  intro ps _
  simpa only [dumpLayout_eq_map] using
    readList_recovers Parameter.read_recovers ps fun _ _ => trivial

/-! ### Codes -/

/-- A place for a code that holds a code. An edit may leave any other value there. -/
def CodeSlot.IsCode (slot : CodeSlot) : Prop := ∃ i : Int, slot = .int i ∧ Code.InRange i

/-- A code is read back from the integer that it is written as. -/
theorem readSlot_recovers : readSlot.Recovers id CodeSlot.IsCode := by
  rintro _ ⟨i, rfl, hlow, hhigh⟩
  have hread : readCode maxCode (.int i) = .ok i := readCode_eq_ok_iff.2 ⟨rfl, hlow, hhigh⟩
  rw [readSlot, id, hread, Checked.map_ok]

/-- What is read in a place for a code is a code. -/
theorem readSlot_yields : readSlot.Yields CodeSlot.IsCode := by
  intro v slot hread
  obtain ⟨i, hi, rfl⟩ := Checked.map_eq_ok_iff.1 hread
  exact ⟨i, rfl, (readCode_eq_ok_iff.1 hi).2⟩

/-! ### Scopes -/

/-- A terminator with a code. -/
def Terminator.Admissible (t : Terminator) : Prop := CodeSlot.IsCode t.code

/-- An arm whose delimiter has a code. -/
def Branch.Admissible (b : Branch) : Prop := CodeSlot.IsCode b.code

/-- A scope whose delimiters and terminator have codes. -/
structure ScopeKind.Admissible (k : ScopeKind) : Prop where
  branches : ∀ b ∈ k.branches, b.Admissible
  terminator : k.terminator.Admissible

/-- Every condition is read back from what it is written as. -/
theorem Condition.read_recovers : Condition.read.Recovers Condition.dump fun _ => True := by
  rintro ⟨parameter, kind⟩ _
  cases kind with
  | isTrue =>
    have hparameter := readNat_recovers parameter trivial
    have hkind : readChoice [("IsTrue", ConditionKind.isTrue)] (.str "IsTrue") = .ok .isTrue := rfl
    refine record_record rfl ?_
    rw [required_ofFields rfl hparameter, optional_ofFields rfl hkind, Checked.map2_ok]

/-- A terminator with a code is read back from what it is written as. -/
theorem Terminator.read_recovers :
    Terminator.read.Recovers Terminator.dump Terminator.Admissible := by
  rintro ⟨code, name⟩ hcode
  refine record_record rfl ?_
  rw [required_ofFields rfl (readSlot_recovers code hcode),
    required_ofFields rfl (readText_recovers name trivial), Checked.map2_ok]

/-- What is read as a terminator has a code. -/
theorem Terminator.read_yields : Terminator.read.Yields Terminator.Admissible := by
  refine record_yields fun es t ht => ?_
  obtain ⟨code, name, hcode, -, rfl⟩ := Checked.map2_eq_ok_iff.1 ht
  exact required_yields readSlot_yields hcode

/-- A delimiter with a code is read back from what it is written as. -/
theorem Branch.read_recovers : Branch.read.Recovers Branch.dump Branch.Admissible := by
  rintro ⟨name, code, condition, duplicate⟩ hcode
  refine record_record rfl ?_
  rw [required_ofFields rfl (readText_recovers name trivial),
    required_ofFields rfl (readSlot_recovers code hcode),
    required_ofFields rfl (Condition.read_recovers condition trivial)]
  cases duplicate with
  | none =>
    have hnone : readOptional readNat .null = .ok none := rfl
    rw [optional_ofFields rfl hnone]
    rfl
  | some i =>
    have hsome := readOptional_recovers readNat_recovers (by simp) i trivial
    rw [optional_ofFields rfl hsome]
    rfl

/-- What is read as a delimiter has a code. -/
theorem Branch.read_yields : Branch.read.Yields Branch.Admissible := by
  refine record_yields fun es b hb => ?_
  obtain ⟨⟨name, code⟩, ⟨condition, duplicate⟩, hfirst, -, rfl⟩ := Checked.map2_eq_ok_iff.1 hb
  exact required_yields readSlot_yields (Checked.both_eq_ok_iff.1 hfirst).2

/-! ### Descriptors -/

/-- The kinds that the schema admits: every place for a code holds one. -/
def CommandKind.Admissible : CommandKind → Prop
  | .scope k => k.Admissible
  | .text continuation => CodeSlot.IsCode continuation
  | .plain _ => True
  | .route continuation => CodeSlot.IsCode continuation
  | .mark => True

/-- The descriptors that the schema admits: the name is a text and every code is one of sixteen
bits. -/
structure Descriptor.Admissible (d : Descriptor) : Prop where
  name : ∃ name : String, d.name = .str name
  kind : d.kind.Admissible

/-- A kind that is told by its continuation code is read back from the record with this code. -/
theorem readContinuation_recovers (tag : String) (make : CodeSlot → CommandKind) (slot : CodeSlot)
    (hslot : CodeSlot.IsCode slot) :
    readContinuation tag make (.tagged tag [("continuation", slot)]) = .ok (make slot) := by
  refine record_record rfl ?_
  rw [tag_ofFields, required_ofFields rfl (readSlot_recovers slot hslot), Checked.map2_ok]

/-- A kind that is read with its continuation code is admissible, as reading gives a code. -/
theorem readContinuation_yields (tag : String) {make : CodeSlot → CommandKind}
    (hmake : ∀ slot, (make slot).Admissible ↔ CodeSlot.IsCode slot) :
    (readContinuation tag make).Yields CommandKind.Admissible := by
  refine record_yields fun es kind hkind => ?_
  obtain ⟨_, slot, -, hslot, rfl⟩ := Checked.map2_eq_ok_iff.1 hkind
  exact (hmake slot).2 (required_yields readSlot_yields hslot)

/-- The delimiters and the terminator of a scope are read back from what they are written as. -/
theorem ScopeKind.read_recovers (k : ScopeKind) (hk : k.Admissible) :
    ScopeKind.read (CommandKind.scope k).dump = .ok k := by
  obtain ⟨parameters, branches, terminator, contains⟩ := k
  have hbranches := readList_recovers Branch.read_recovers branches hk.branches
  have hterminator := Terminator.read_recovers terminator hk.terminator
  refine record_record rfl ?_
  rw [tag_ofFields, optional_ofFields rfl (readLayout_recovers parameters trivial),
    optional_ofFields rfl hbranches, required_ofFields rfl hterminator,
    optional_ofFields rfl (readFlag_recovers contains trivial)]
  rfl

/-- What is read as the kind of a scope has codes throughout. -/
theorem ScopeKind.read_yields : ScopeKind.read.Yields ScopeKind.Admissible := by
  refine record_yields fun es k hk => ?_
  obtain ⟨_, ⟨⟨parameters, branches⟩, ⟨terminator, contains⟩⟩, -, hparts, rfl⟩ :=
    Checked.map2_eq_ok_iff.1 hk
  obtain ⟨hlists, hends⟩ := Checked.both_eq_ok_iff.1 hparts
  have hbranches := (Checked.both_eq_ok_iff.1 hlists).2
  have hterminator := (Checked.both_eq_ok_iff.1 hends).1
  exact ⟨optional_yields (by simp) (readList_yields Branch.read_yields) hbranches,
    required_yields Terminator.read_yields hterminator⟩

/-- Every admissible kind is read back from what it is written as, one case for each kind. -/
theorem CommandKind.read_recovers :
    CommandKind.read.Recovers CommandKind.dump CommandKind.Admissible := by
  intro kind hkind
  cases kind with
  | scope k =>
    refine tagged_tagged _ rfl ?_
    have hread := ScopeKind.read_recovers k hkind
    exact Checked.map_eq_ok_iff.2 ⟨k, hread, rfl⟩
  | text slot => exact tagged_tagged _ rfl (readContinuation_recovers _ _ slot hkind)
  | plain parameters =>
    refine tagged_tagged _ rfl (record_record rfl ?_)
    rw [tag_ofFields, optional_ofFields rfl (readLayout_recovers parameters trivial),
      Checked.map2_ok]
  | route slot => exact tagged_tagged _ rfl (readContinuation_recovers _ _ slot hkind)
  | mark => exact tagged_tagged [] rfl (readBare_tagged _ _)

/-- Every kind that is read is admissible, one case for each member of the union. -/
theorem CommandKind.read_yields : CommandKind.read.Yields CommandKind.Admissible := by
  refine tagged_yields fun member hmember => ?_
  simp only [List.mem_cons, List.not_mem_nil, or_false] at hmember
  obtain rfl | rfl | rfl | rfl | rfl := hmember
  · intro v kind hkind
    obtain ⟨k, hk, rfl⟩ := Checked.map_eq_ok_iff.1 hkind
    exact ScopeKind.read_yields v k hk
  · exact readContinuation_yields "Multi" fun _ => Iff.rfl
  · refine record_yields fun es kind hkind => ?_
    obtain ⟨_, parameters, -, -, rfl⟩ := Checked.map2_eq_ok_iff.1 hkind
    exact trivial
  · exact readContinuation_yields "MoveRoute" fun _ => Iff.rfl
  · refine record_yields fun es kind hkind => ?_
    obtain ⟨_, -, rfl⟩ := Checked.map_eq_ok_iff.1 hkind
    exact trivial

/-- Every admissible descriptor is read back from what it is written as. -/
theorem Descriptor.read_recovers :
    Descriptor.read.Recovers Descriptor.dump Descriptor.Admissible := by
  rintro ⟨_, kind⟩ ⟨⟨name, rfl⟩, hkind⟩
  refine record_record rfl ?_
  rw [required_ofFields rfl (readText_recovers name trivial),
    required_ofFields rfl (CommandKind.read_recovers kind hkind), Checked.map2_ok]

/-- Every descriptor that is read is admissible. -/
theorem Descriptor.read_yields : Descriptor.read.Yields Descriptor.Admissible := by
  refine record_yields fun es d hd => ?_
  obtain ⟨name, kind, -, hkind, rfl⟩ := Checked.map2_eq_ok_iff.1 hd
  exact ⟨⟨name, rfl⟩, required_yields CommandKind.read_yields hkind⟩

/-- A scope with one arm and a selector whose only layout has a selector in it. -/
def Descriptor.sample : Descriptor where
  name := .str "Choices"
  kind := .scope {
    parameters := [.field 2 "Kind" (.selector
      [[.field 0 "On" (.selector [[.label "x"], []]), .label "is"]])]
    branches := [⟨"When", .int 402, ⟨1, .isTrue⟩, some 0⟩, ⟨"Else", .int 1, ⟨0, .isTrue⟩, none⟩]
    terminator := ⟨.int 404, "End"⟩
    containsCommands := false }

/-- The sample in lenient data: numbers as text, floats and truth values, tuples for lists, a number
for a truth value and fields left out. -/
def Descriptor.lenientSample : Value :=
  .record [("kind", .tagged "Branch" [
      ("command_contains_branch", .int 0),
      ("terminator", .record [("name", .str "End"), ("code", .str " 404.0 ")]),
      ("branches", .tuple [
        .record [("name", .str "When"), ("code", .str "402"),
          ("condition", .record [("parameter", .bool true)]),
          ("duplicate_parameter", .float (.zero true))],
        .record [("name", .str "Else"), ("code", .bool true),
          ("condition", .record [("parameter", .int 0), ("kind", .str "IsTrue")])]]),
      ("parameters", .list [.tagged "Parameter" [("index", .str "+2"), ("name", .str "Kind"),
        ("kind", .tagged "Selector" [("options", .tuple [.tuple [
          .tagged "Parameter" [("index", .bool false), ("name", .str "On"),
            ("kind", .tagged "Selector" [("options", .list [
              .list [.tagged "Label" [("text", .str "x")]], .tuple []])])],
          .tagged "Label" [("text", .bytes [105, 115])]]])])]])]),
    ("name", .str "Choices")]

end PageOutline
