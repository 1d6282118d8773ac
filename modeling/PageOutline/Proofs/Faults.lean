import Mathlib.Data.List.Forall2
import PageOutline.Schema.Record

/-!
# What readers find fault with

The faults of a reading are put together from those of its parts: a list has the faults of its
items, a union those of the member that the tag names, and a record those of its fields in their
order and after them those of the keys that are no fields. `ReadsFields` says so of a record's
fields, one by one, and has a lemma for every way in which fields are read.
-/

namespace PageOutline.Schema

variable {α β γ : Type}

/-- The faults that a reader finds in some data. -/
def Reader.faults (read : Reader α) (v : Value) : List Fault := (read v).faults

/-! ### Looking keys up -/

/-- Of two tables whose rows are related one by one and have the same names, what is found in the
first is related to what is found in the second. -/
theorem exists_lookup_of_forall₂ {R : String × α → String × β → Prop} {rows : List (String × α)}
    {rows' : List (String × β)} {name : String} {a : α}
    (hname : ∀ {row row'}, R row row' → row.1 = row'.1) (h : List.Forall₂ R rows rows')
    (ha : rows.lookup name = some a) : ∃ b, rows'.lookup name = some b ∧ R (name, a) (name, b) := by
  induction h with
  | nil => cases ha
  | @cons row row' rows rows' hrow h ih =>
    obtain ⟨key, x⟩ := row
    obtain ⟨key', y⟩ := row'
    obtain rfl : key = key' := hname hrow
    rw [List.lookup_cons] at ha ⊢
    split at ha
    next heq =>
      obtain rfl : name = key := by simpa using heq
      obtain rfl : x = a := by simpa using ha
      exact ⟨y, rfl, hrow⟩
    next => exact ih ha

/-- A key is found in the first entries, or else in those after them. -/
theorem lookup?_append (es es' : Entries) (name : String) :
    Value.lookup? (es ++ es') name = (Value.lookup? es name).or (Value.lookup? es' name) := by
  simp [Value.lookup?, List.find?_append, Option.map_or]

/-- The first entry is what is found for its own key and for no other. -/
theorem lookup?_cons_str (key name : String) (v : Value) (es : Entries) :
    Value.lookup? ((.str key, v) :: es) name =
      if key = name then some v else Value.lookup? es name := by
  by_cases hkey : key = name <;> simp [Value.lookup?, hkey]

/-- A key that is not the one looked up may be passed over. -/
theorem lookup?_cons_of_ne {key : Value} {name : String} (hkey : key ≠ .str name) (v : Value)
    (es : Entries) : Value.lookup? ((key, v) :: es) name = Value.lookup? es name := by
  cases key with
  | str k =>
    have hne : k ≠ name := fun h => hkey (congrArg Value.str h)
    rw [lookup?_cons_str, if_neg hne]
  | _ => rfl

/-- The faults of stray keys are those of the first entries and then those of the others. -/
theorem strangers_append (es es' : Entries) (names : List String) :
    Entries.strangers (es ++ es') names = es.strangers names ++ es'.strangers names := by
  simp [Entries.strangers]

/-- The first entry has a fault if its key is a stray one; the others have theirs after it. -/
theorem strangers_cons (e : Value × Value) (es : Entries) (names : List String) :
    Entries.strangers (e :: es) names = (keyFault? names e.1).toList ++ es.strangers names := by
  simp only [Entries.strangers, List.filterMap_cons]
  cases keyFault? names e.1 <;> rfl

/-- One of some entries has a broken key if one of the first or one of the others has. -/
theorem hasBrokenKey_append (es es' : Entries) :
    Entries.hasBrokenKey (es ++ es') = (es.hasBrokenKey || es'.hasBrokenKey) := by
  simp [Entries.hasBrokenKey]

/-! ### Fields -/

/-- A field's name and the faults that its value has, or its absence. -/
abbrev FieldFaults := String × (Option Value → List Fault)

/-- The faults of what is read from the fields of a record are those of each field, in this
order. -/
def ReadsFields (build : Entries → Checked α) (fields : List FieldFaults) : Prop :=
  ∀ es, (build es).faults = fields.flatMap fun field => field.2 (Value.lookup? es field.1)

/-- What is read depends on what is found for the fields. -/
theorem ReadsFields.congr {build : Entries → Checked α} {fields : List FieldFaults}
    {es es' : Entries}
    (h : ReadsFields build fields)
    (heq : ∀ field ∈ fields, Value.lookup? es field.1 = Value.lookup? es' field.1) :
    (build es).faults = (build es').faults := by
  rw [h, h, List.flatMap_def, List.flatMap_def]
  congr 1
  exact List.map_congr_left fun field hfield => by rw [heq field hfield]

/-- The faults of a field that may be absent. -/
def optionalFaults (name : String) (read : Reader α) : FieldFaults where
  fst := name
  snd
    | some v => (read.faults v).map (·.under (.key name))
    | none => []

/-- The faults of a field that has to be there. -/
def requiredFaults (name : String) (read : Reader α) : FieldFaults where
  fst := name
  snd
    | some v => (read.faults v).map (·.under (.key name))
    | none => [⟨[.key name], .missing⟩]

/-- A field that has to be there has the faults of its value, or that of its absence. -/
theorem readsFields_required (name : String) (read : Reader α) :
    ReadsFields (·.required name read) [requiredFaults name read] := by
  intro es
  simp only [Entries.required, requiredFaults, List.flatMap_cons, List.flatMap_nil, List.append_nil]
  cases Value.lookup? es name with
  | none => rfl
  | some v => rw [Checked.faults_under]; rfl

/-- A field that may be absent has the faults of its value and none without one. -/
theorem readsFields_optional (name : String) (absent : α) (read : Reader α) :
    ReadsFields (·.optional name absent read) [optionalFaults name read] := by
  intro es
  simp only [Entries.optional, optionalFaults, List.flatMap_cons, List.flatMap_nil, List.append_nil]
  cases Value.lookup? es name with
  | none => rfl
  | some v => rw [Checked.faults_under]; rfl

/-- Two readings of fields together have the fields of both. -/
theorem ReadsFields.both {x : Entries → Checked α} {y : Entries → Checked β}
    {fields fields' : List FieldFaults} (hx : ReadsFields x fields) (hy : ReadsFields y fields') :
    ReadsFields (fun es => (x es).both (y es)) (fields ++ fields') := by
  intro es
  rw [Checked.faults_both, hx, hy, List.flatMap_append]

/-- Two readings of fields that are put together have the fields of both. -/
theorem ReadsFields.map2 {x : Entries → Checked α} {y : Entries → Checked β}
    {fields fields' : List FieldFaults} (hx : ReadsFields x fields) (hy : ReadsFields y fields')
    (f : α → β → γ) : ReadsFields (fun es => (x es).map2 f (y es)) (fields ++ fields') := by
  intro es
  rw [Checked.faults_map2, hx, hy, List.flatMap_append]

/-- Changing what is read from fields changes no faults. -/
theorem ReadsFields.map {x : Entries → Checked α} {fields : List FieldFaults}
    (hx : ReadsFields x fields) (f : α → β) : ReadsFields (fun es => (x es).map f) fields := by
  intro es
  rw [Checked.faults_map, hx]

/-- The field that names the kind of a record holds that name, if it is there. -/
def readTag (name : String) : Reader Unit
  | .str s => if s = name then .ok () else .fault .literalError
  | _ => .fault .literalError

/-- The tag of a record is a field that may be absent. -/
theorem readsFields_tag (name : String) :
    ReadsFields (·.tag name) [optionalFaults "type" (readTag name)] := by
  have htag : (Entries.tag · name) = (·.optional "type" () (readTag name)) := by
    funext es
    unfold Entries.tag Entries.optional
    cases Value.lookup? es "type" with
    | none => rfl
    | some v => cases v <;> rfl
  rw [htag]
  exact readsFields_optional "type" () (readTag name)

/-! ### Lists, records and unions -/

/-- The first item of a list has its faults at its own index, and the others have theirs after
it. -/
theorem faults_readItems_cons (read : Reader α) (start : Nat) (v : Value) (vs : List Value) :
    (readItems read start (v :: vs)).faults =
      (read.faults v).map (·.under (.number start)) ++ (readItems read (start + 1) vs).faults := by
  rw [readItems, Checked.faults_map2, Checked.faults_under]
  rfl

/-- The faults of a list's items, each at its index. -/
theorem faults_readItems_append (read : Reader α) (start : Nat) (vs ws : List Value) :
    (readItems read start (vs ++ ws)).faults =
      (readItems read start vs).faults ++ (readItems read (start + vs.length) ws).faults := by
  induction vs generalizing start with
  | nil => rfl
  | cons v vs ih =>
    rw [List.cons_append, faults_readItems_cons, faults_readItems_cons, ih, List.append_assoc,
      List.length_cons, Nat.add_assoc, Nat.add_comm 1]

/-- A record with a broken key has that fault alone. Any other has the faults of its fields and then
those of its stray keys. -/
theorem faults_record {v : Value} {es : Entries} (hdict : v.reveal = .dict es) (names : List String)
    (build : Entries → Checked α) :
    Reader.faults (record names build) v =
      if es.hasBrokenKey then [⟨[], .stringUnicode⟩]
      else (build es).faults ++ es.strangers names := by
  simp only [Reader.faults, record, hdict]
  split
  · rfl
  · rw [Checked.faults_alongside]

/-- Data without fault for a record is a dictionary with texts for keys, all of them fields, and
none of these is at fault. -/
theorem faults_record_eq_nil_iff {names : List String} {build : Entries → Checked α} {v : Value} :
    Reader.faults (record names build) v = [] ↔
      ∃ es, v.reveal = .dict es ∧ Entries.hasBrokenKey es = false ∧
        Entries.strangers es names = [] ∧ (build es).faults = [] := by
  unfold Reader.faults record
  split
  next es hdict =>
    simp only [hdict, Value.dict.injEq, exists_eq_left']
    cases Entries.hasBrokenKey es with
    | true => simp
    | false => simp [and_comm]
  next hother =>
    simp only [Checked.faults_fault, reduceCtorEq, false_iff]
    rintro ⟨es, hdict, -⟩
    exact hother es hdict

/-- The faults of a union are those of the member that the tag names, below the tag. -/
theorem faults_tagged {members : List (String × Reader α)} {v : Value} {es : Entries} {tag : String}
    {read : Reader α} (hdict : v.reveal = .dict es)
    (htag : Value.lookup? es "type" = some (.str tag))
    (hmember : members.lookup tag = some read) :
    Reader.faults (tagged members) v = (read.faults (.dict es)).map (·.under (.key tag)) := by
  simp only [Reader.faults, tagged, hdict, htag, hmember, Checked.faults_under]

/-- Data without fault for a union is a dictionary without fault for the member that its tag
names. -/
theorem exists_member_of_faults_tagged {members : List (String × Reader α)} {v : Value}
    (h : Reader.faults (tagged members) v = []) :
    ∃ es tag read, v.reveal = .dict es ∧ Value.lookup? es "type" = some (.str tag) ∧
      members.lookup tag = some read ∧ read.faults (.dict es) = [] := by
  unfold Reader.faults tagged at h
  split at h
  next es hdict =>
    split at h
    · simp at h
    next tag htag =>
      split at h
      next read hmember =>
        refine ⟨es, tag, read, hdict, htag, hmember, ?_⟩
        simpa [Reader.faults] using h
      · simp at h
    · simp at h
  · simp at h

/-! ### Readers that accept no less -/

/-- What a reader finds no fault with is no fault for another reader either. -/
def Reader.Within (read : Reader α) (read' : Reader β) : Prop :=
  ∀ v, read.faults v = [] → read'.faults v = []

variable {read : Reader α} {read' : Reader β}

/-- A reader finds no fault where it finds none. -/
theorem Reader.Within.refl (read : Reader α) : read.Within read := fun _ hv => hv

/-- A reader that accepts nothing accepts no more than any other. -/
theorem Reader.Within.of_fault (kind : FaultKind) (read' : Reader β) :
    Reader.Within (fun _ => (.fault kind : Checked α)) read' := by
  intro v hv
  simp [Reader.faults] at hv

/-- If all items of a list are without fault for a reader, they are so for one that accepts as
much. -/
theorem Reader.Within.readItems (h : read.Within read') (start : Nat) (vs : List Value)
    (hvs : (Schema.readItems read start vs).faults = []) :
    (Schema.readItems read' start vs).faults = [] := by
  induction vs generalizing start with
  | nil => rfl
  | cons v vs ih =>
    rw [faults_readItems_cons, List.append_eq_nil_iff, List.map_eq_nil_iff] at hvs ⊢
    exact ⟨h v hvs.1, ih (start + 1) hvs.2⟩

/-- A list without fault for a reader of items is so for one that accepts as much. -/
theorem Reader.Within.readList (h : read.Within read') :
    (Schema.readList read).Within (Schema.readList read') := by
  intro v hv
  unfold Reader.faults Schema.readList at hv ⊢
  split at hv
  · exact h.readItems 0 _ hv
  · exact h.readItems 0 _ hv
  · exact h.readItems 0 _ hv
  · simp at hv

/-- A required field without fault for a reader is so for one that accepts as much. -/
theorem Reader.Within.required (h : read.Within read') {es : Entries} {name : String}
    (hes : (es.required name read).faults = []) : (es.required name read').faults = [] := by
  unfold Entries.required at hes ⊢
  split at hes
  next v hv =>
    rw [Checked.faults_under, List.map_eq_nil_iff] at hes ⊢
    exact h v hes
  · simp at hes

/-- A record accepts as much as another if its fields do, and the same names are known. -/
theorem record_within {names : List String} {build : Entries → Checked α}
    {build' : Entries → Checked β} (h : ∀ es, (build es).faults = [] → (build' es).faults = []) :
    (record names build).Within (record names build') := by
  intro v hv
  rw [faults_record_eq_nil_iff] at hv ⊢
  obtain ⟨es, hdict, hbroken, hstrangers, hbuild⟩ := hv
  exact ⟨es, hdict, hbroken, hstrangers, h es hbuild⟩

/-- A member of a union beside one of the same name that accepts no less. -/
structure MemberWithin (member : String × Reader α) (member' : String × Reader β) : Prop where
  name_eq : member.1 = member'.1
  within : member.2.Within member'.2

/-- A union accepts as much as another if its members do one by one. -/
theorem tagged_within {members : List (String × Reader α)} {members' : List (String × Reader β)}
    (h : List.Forall₂ MemberWithin members members') :
    (tagged members).Within (tagged members') := by
  intro v hv
  obtain ⟨es, tag, read, hdict, htag, hmember, hread⟩ := exists_member_of_faults_tagged hv
  obtain ⟨read', hmember', hwithin⟩ :=
    exists_lookup_of_forall₂ (fun hrow => MemberWithin.name_eq hrow) h hmember
  rw [faults_tagged hdict htag hmember', hwithin.within _ hread, List.map_nil]

end PageOutline.Schema
