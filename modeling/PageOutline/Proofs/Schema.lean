import PageOutline.Schema.Record
import PageOutline.Descriptor.Dump

/-!
# What readers accept

Two properties of a reader. `Recovers` says that data written in one way is read back, and `Yields`
says what holds of everything that is ever read. Each has one lemma for every way of putting readers
together, so that a schema is settled field by field.
-/

namespace PageOutline.Schema

variable {α β γ : Type}

/-- What is written of a value that has the property is read as that value. -/
def Reader.Recovers (read : Reader α) (write : α → Value) (P : α → Prop) : Prop :=
  ∀ a, P a → read (write a) = .ok a

/-- Everything that is read has the property, whatever it is read from. -/
def Reader.Yields (read : Reader α) (P : α → Prop) : Prop :=
  ∀ v a, read v = .ok a → P a

/-! ### Scalars -/

/-- The natural numbers are the whole numbers that are not negative, whichever way they are
written. -/
theorem readNat_eq_ok_iff {v : Value} {n : Nat} :
    readNat v = .ok n ↔ readInt v = .ok (n : Int) := by
  unfold readNat
  cases readInt v with
  | faulty fs => simp
  | ok i =>
    by_cases hi : 0 ≤ i
    · simp only [if_pos hi, Checked.ok.injEq]
      omega
    · simp only [if_neg hi, Checked.fault, reduceCtorEq, Checked.ok.injEq, false_iff]
      omega

/-- A code is a whole number between zero and the limit. -/
theorem readCode_eq_ok_iff {limit : Int} {v : Value} {i : Int} :
    readCode limit v = .ok i ↔ readInt v = .ok i ∧ 0 ≤ i ∧ i ≤ limit := by
  unfold readCode
  cases readInt v with
  | faulty fs => simp
  | ok j =>
    simp only [Checked.ok.injEq]
    split
    · simp only [Checked.fault, reduceCtorEq, false_iff]
      omega
    · split
      · simp only [Checked.fault, reduceCtorEq, false_iff]
        omega
      · simp only [Checked.ok.injEq]
        omega

/-- A natural number is written as an integer. -/
theorem readNat_recovers : readNat.Recovers (fun n => .int n) fun _ => True :=
  fun _ _ => readNat_eq_ok_iff.2 rfl

/-- A text is written as it stands. -/
theorem readText_recovers : readText.Recovers .str fun _ => True :=
  fun _ _ => rfl

/-- A truth value is written as it stands. -/
theorem readFlag_recovers : readFlag.Recovers .bool fun _ => True :=
  fun _ _ => rfl

/-- Where null is the form of no value, a field that may be null reads each value back. -/
theorem readOptional_recovers {read : Reader α} {write : α → Value} {P : α → Prop}
    (h : read.Recovers write P) (hnull : ∀ a, write a ≠ .null) (a : α) (ha : P a) :
    readOptional read (write a) = .ok (some a) := by
  have hsome : readOptional read (write a) = (read (write a)).map some := by
    cases hw : write a <;> first | rfl | exact absurd hw (hnull a)
  rw [hsome, h a ha, Checked.map_ok]

/-! ### Lists -/

/-- The items of a list are read again if each of them is, wherever counting starts. -/
theorem readItems_recovers {read : Reader α} {write : α → Value} {P : α → Prop}
    (h : read.Recovers write P) :
    ∀ (as : List α) (start : Nat), (∀ a ∈ as, P a) →
      readItems read start (as.map write) = .ok as := by
  intro as
  induction as with
  | nil => exact fun _ _ => rfl
  | cons a as ih =>
    intro start hP
    have hhead := h a (hP a (by simp))
    have htail := ih (start + 1) fun b hb => hP b (by simp [hb])
    simp [readItems, hhead, htail, Checked.map2]

/-- A list is read again if its items are. -/
theorem readList_recovers {read : Reader α} {write : α → Value} {P : α → Prop}
    (h : read.Recovers write P) :
    (readList read).Recovers (fun as => .list (as.map write)) fun as => ∀ a ∈ as, P a :=
  fun as hP => readItems_recovers h as 0 hP

/-- Items that are read have the property that reading one of them gives. -/
theorem readItems_yields {read : Reader α} {P : α → Prop} (h : read.Yields P) :
    ∀ (vs : List Value) (start : Nat) (as : List α),
      readItems read start vs = .ok as → ∀ a ∈ as, P a := by
  intro vs
  induction vs with
  | nil =>
    intro start as has
    obtain rfl : [] = as := by simpa [readItems] using has
    simp
  | cons v vs ih =>
    intro start as has
    obtain ⟨b, bs, hb, hbs, rfl⟩ := Checked.map2_eq_ok_iff.1 has
    have hhead : P b := h v b (Checked.under_eq_ok_iff.1 hb)
    simpa using ⟨hhead, ih (start + 1) bs hbs⟩

/-- A list that is read has items with the property that reading one of them gives. -/
theorem readList_yields {read : Reader α} {P : α → Prop} (h : read.Yields P) :
    (readList read).Yields fun as => ∀ a ∈ as, P a := by
  intro v as has
  unfold readList at has
  split at has
  · exact readItems_yields h _ 0 as has
  · exact readItems_yields h _ 0 as has
  · exact readItems_yields h _ 0 as has
  · simp [Checked.fault] at has

/-! ### Records and unions -/

/-- What stands in a dictionary that was written from fields. -/
def Entries.ofFields (fields : List (String × Value)) : Entries :=
  fields.map fun (name, v) => (.str name, v)

/-- No name of a field is a text with surrogates. -/
theorem hasBrokenKey_ofFields (fields : List (String × Value)) :
    (Entries.ofFields fields).hasBrokenKey = false := by
  induction fields with
  | nil => rfl
  | cons field fields ih => simp [Entries.ofFields, Entries.hasBrokenKey]

/-- No entry but the fields is in a record that was written from them. -/
theorem strangers_ofFields (fields : List (String × Value)) :
    (Entries.ofFields fields).strangers (fields.map (·.1)) = [] := by
  have hknown : ∀ field ∈ fields, keyFault? (fields.map (·.1)) (.str field.1) = none := by
    intro field hfield
    have hmem : field.1 ∈ fields.map (·.1) := List.mem_map_of_mem hfield
    simp only [keyFault?, List.contains_iff_mem, hmem, if_true]
  simpa [Entries.strangers, Entries.ofFields, List.filterMap_map] using hknown

/-- In what was written from fields a name is looked up as among them. -/
theorem lookup?_ofFields (fields : List (String × Value)) (name : String) :
    Value.lookup? (Entries.ofFields fields) name = fields.lookup name := by
  induction fields with
  | nil => rfl
  | cons field fields ih =>
    obtain ⟨key, v⟩ := field
    simp only [Value.lookup?, Entries.ofFields, List.map_cons, List.find?_cons] at ih ⊢
    rw [List.lookup_cons, ← ih]
    by_cases hkey : key = name
    · simp [hkey]
    · have hname : (name == key) = false := by simpa using fun h => hkey h.symm
      have hkey' : (key == name) = false := by simpa using hkey
      simp only [hname, hkey', ih]

/-- A record that is written with exactly its fields is read from them. -/
theorem record_record {fields : List (String × Value)} {names : List String}
    {build : Entries → Checked α} {a : α} (hnames : fields.map (·.1) = names)
    (hbuild : build (.ofFields fields) = .ok a) : record names build (.record fields) = .ok a := by
  subst hnames
  have hbroken := hasBrokenKey_ofFields fields
  have hstrangers := strangers_ofFields fields
  simp only [Entries.ofFields] at hbroken hstrangers hbuild
  simp [record, Value.record, hbroken, hstrangers, hbuild]

/-- A field that was written is read, where the record asks for it. -/
theorem required_ofFields {fields : List (String × Value)} {name : String} {v : Value} {a : α}
    {read : Reader α} (hname : fields.lookup name = some v) (hread : read v = .ok a) :
    (Entries.ofFields fields).required name read = .ok a := by
  simp [Entries.required, lookup?_ofFields, hname, hread]

/-- A field that was written is read, where the record may be without it. -/
theorem optional_ofFields {fields : List (String × Value)} {name : String} {v : Value}
    {absent a : α} {read : Reader α} (hname : fields.lookup name = some v)
    (hread : read v = .ok a) :
    (Entries.ofFields fields).optional name absent read = .ok a := by
  simp [Entries.optional, lookup?_ofFields, hname, hread]

/-- The tag of a record is found again. -/
theorem tag_ofFields (tag : String) (fields : List (String × Value)) :
    (Entries.ofFields (("type", .str tag) :: fields)).tag tag = .ok () := by
  simp [Entries.tag, Entries.optional, lookup?_ofFields]

/-- A union that is written with its tag is read by the member that the tag names. -/
theorem tagged_tagged {members : List (String × Reader α)} {tag : String} {read : Reader α}
    (fields : List (String × Value)) (hmember : members.lookup tag = some read) {a : α}
    (hread : read (.tagged tag fields) = .ok a) :
    tagged members (.tagged tag fields) = .ok a := by
  have htype := lookup?_ofFields (("type", .str tag) :: fields) "type"
  simp only [Entries.ofFields, List.lookup_cons, beq_self_eq_true] at htype
  simp only [tagged, Value.tagged, Value.record, Value.reveal_dict, htype, hmember]
  exact Checked.under_eq_ok_iff.2 hread

/-- A record that is read has a property if it is built with it. -/
theorem record_yields {names : List String} {build : Entries → Checked α} {P : α → Prop}
    (h : ∀ es a, build es = .ok a → P a) : (record names build).Yields P := by
  intro v a ha
  unfold record at ha
  split at ha
  · split at ha
    · simp [Checked.fault] at ha
    · exact h _ a (Checked.alongside_eq_ok_iff.1 ha).1
  · simp [Checked.fault] at ha

/-- What is read as a member of a union has a property if each member does. -/
theorem tagged_yields {members : List (String × Reader α)} {P : α → Prop}
    (h : ∀ member ∈ members, member.2.Yields P) : (tagged members).Yields P := by
  intro v a ha
  unfold tagged at ha
  split at ha
  · split at ha
    · simp [Checked.fault] at ha
    next name _ =>
      split at ha
      next read hread =>
        obtain ⟨before, after, hmembers, -⟩ := List.lookup_eq_some_iff.1 hread
        exact h (name, read) (by simp [hmembers]) _ a (Checked.under_eq_ok_iff.1 ha)
      · simp [Checked.fault] at ha
    · simp [Checked.fault] at ha
  · simp [Checked.fault] at ha

/-- The value of a field that must be there has the property that reading it gives. -/
theorem required_yields {es : Entries} {name : String} {read : Reader α} {P : α → Prop}
    (h : read.Yields P) {a : α} (ha : es.required name read = .ok a) : P a := by
  unfold Entries.required at ha
  split at ha
  · exact h _ a (Checked.under_eq_ok_iff.1 ha)
  · simp at ha

/-- The value of a field that may be absent has a property if reading and the default both give
it. -/
theorem optional_yields {es : Entries} {name : String} {absent : α} {read : Reader α}
    {P : α → Prop} (habsent : P absent) (h : read.Yields P) {a : α}
    (ha : es.optional name absent read = .ok a) : P a := by
  unfold Entries.optional at ha
  split at ha
  · exact h _ a (Checked.under_eq_ok_iff.1 ha)
  · obtain rfl : absent = a := by simpa using ha
    exact habsent

end PageOutline.Schema
