import Mathlib.Data.List.Forall2
import Mathlib.Data.List.Nodup
import PageOutline.Proofs.Faults
import PageOutline.Proofs.Loading

/-!
# Stray keys

A key that is no field of its record is found wherever the record stands. `Form` tells where records
stand in data, and `Adds` says of two pieces of data that one is the other with an entry more in one
of these records. A reader that `Spots` stray keys finds nothing else wrong with the second than
that key, if nothing is wrong with the first. Every way of putting readers together keeps this.
-/

namespace PageOutline

namespace Schema

/-! ## Where records stand -/

/-- Where records stand in data that is read with a schema. -/
inductive Form where
  /-- Data that holds no record. -/
  | leaf
  | record (fields : List (String × Form))
  | union (members : List (String × Form))
  | list (item : Form)
  /-- A part of a layout, in which the schema comes back to itself. -/
  | part

/-- A record that has only its tag. -/
def Form.bare : Form := .record [("type", .leaf)]

/-- The record has a tag, in which no record stands. -/
def Form.HasTag : Form → Prop
  | .record fields => fields.lookup "type" = some .leaf
  | _ => False

end Schema

open Schema

/-- The kind of a parameter: a selector has layouts with further parts. -/
def ParameterKind.form : Form :=
  .union [("Switch", .bare), ("Variable", .bare),
    ("Enum", .record [("type", .leaf), ("values", .leaf)]),
    ("Selector", .record [("type", .leaf), ("options", .list (.list .part))]),
    ("SelfSwitch", .bare), ("IntBool", .bare), ("Bool", .bare), ("Int", .bare)]

/-- A part of a layout: a position or a label. -/
def Parameter.form : Form :=
  .union [
    ("Parameter", .record [("type", .leaf), ("index", .leaf), ("name", .leaf),
      ("kind", ParameterKind.form)]),
    ("Label", .record [("type", .leaf), ("text", .leaf)])]

/-- A condition. -/
def Condition.form : Form := .record [("parameter", .leaf), ("kind", .leaf)]

/-- A terminator. -/
def Terminator.form : Form := .record [("code", .leaf), ("name", .leaf)]

/-- An arm, with its condition. -/
def Branch.form : Form :=
  .record [("name", .leaf), ("code", .leaf), ("condition", Condition.form),
    ("duplicate_parameter", .leaf)]

/-- A scope, with its parameters, arms and terminator. -/
def ScopeKind.form : Form :=
  .record [("type", .leaf), ("parameters", .list .part), ("branches", .list Branch.form),
    ("terminator", Terminator.form), ("command_contains_branch", .leaf)]

/-- The kind of a command. -/
def CommandKind.form : Form :=
  .union [("Branch", ScopeKind.form), ("Multi", .record [("type", .leaf), ("continuation", .leaf)]),
    ("Regular", .record [("type", .leaf), ("parameters", .list .part)]),
    ("MoveRoute", .record [("type", .leaf), ("continuation", .leaf)]), ("Blank", .bare)]

/-- A descriptor. -/
def Descriptor.form : Form := .record [("name", .leaf), ("kind", CommandKind.form)]

namespace Schema

/-! ## One entry more -/

/-- The collections that are read as lists and can hold records. A set cannot, for a dictionary may
change and is no member of a set. -/
inductive Sequence where
  | list
  | tuple

namespace Sequence

/-- The collection with some items. -/
def value : Sequence → List Value → Value
  | .list => .list
  | .tuple => .tuple

variable (s : Sequence) (vs : List Value)

/-- A sequence is told by its items. -/
theorem value_injective {ws : List Value} (h : s.value vs = s.value ws) : vs = ws := by
  cases s
  · exact Value.list.inj h
  · exact Value.tuple.inj h

/-- A sequence is no knot. -/
@[simp] theorem reveal_value : (s.value vs).reveal = s.value vs := by
  cases s <;> rfl

/-- A sequence has no id. -/
@[simp] theorem knotId?_value : (s.value vs).knotId? = none := by
  cases s <;> rfl

/-- A sequence is larger than its items by one. -/
@[simp] theorem size_value : (s.value vs).size = Value.sizes vs + 1 := by
  cases s <;> rw [value, Value.size]

/-- A knot is tied within the items of a sequence. -/
@[simp] theorem tie_value (id : Nat) (whole : Value) :
    Value.tie id whole (s.value vs) = s.value (vs.map (Value.tie id whole)) := by
  cases s <;> rw [value, Value.tie, Value.tieItems_eq_map]

/-- Both kinds of sequences are read item by item. -/
theorem readList_value {α : Type} (read : Reader α) {v : Value} (hv : v.reveal = s.value vs) :
    readList read v = readItems read 0 vs := by
  cases s <;> simp only [readList, hv, value]

end Sequence

/-- The second value is the first with an entry more in one of the records that stand in it. The
entry has the key, which is no field of that record, and the path leads to the record. On the way a
field is found where its name is looked up, and a knot is no part of itself: data that contains
itself is read as no descriptor. -/
inductive Adds (key : Value) : Form → Value → List Step → Value → Prop
  | here {fields : List (String × Form)} {es es' : Entries} {x : Value}
      (hkey : ∀ name, key = .str name → name ∉ fields.map (·.1)) :
      Adds key (.record fields) (.dict (es ++ es')) [] (.dict (es ++ (key, x) :: es'))
  | field {fields : List (String × Form)} {es es' : Entries} {name : String} {form : Form}
      {v v' : Value} {path : List Step} (hfield : fields.lookup name = some form)
      (hfirst : Value.lookup? es name = none) (h : Adds key form v path v') :
      Adds key (.record fields) (.dict (es ++ (.str name, v) :: es')) (.key name :: path)
        (.dict (es ++ (.str name, v') :: es'))
  | member {members : List (String × Form)} {es es' : Entries} {tag : String} {form : Form}
      {path : List Step} (htag : Value.lookup? es "type" = some (.str tag))
      (hmember : members.lookup tag = some form) (h : Adds key form (.dict es) path (.dict es')) :
      Adds key (.union members) (.dict es) (.key tag :: path) (.dict es')
  | item {item : Form} {vs ws : List Value} {v v' : Value} {path : List Step} (s : Sequence)
      (h : Adds key item v path v') :
      Adds key (.list item) (s.value (vs ++ v :: ws)) (.number vs.length :: path)
        (s.value (vs ++ v' :: ws))
  | part {v v' : Value} {path : List Step} (h : Adds key Parameter.form v path v') :
      Adds key .part v path v'
  | knot {form : Form} {v v' : Value} {path : List Step} (id : Nat)
      (hplain : ∀ whole, Value.tie id whole v = v) (h : Adds key form v path v') :
      Adds key form (.knot id v) path (.knot id v')

namespace Adds

variable {key v v' : Value} {form : Form} {path : List Step}

/-- One entry more does not change which knot a value is. -/
theorem knotId?_eq (h : Adds key form v path v') : v'.knotId? = v.knotId? := by
  induction h with
  | here hkey => rfl
  | field hfield hfirst h ih => rfl
  | member htag hmember h ih => rfl
  | item s h ih => rw [Sequence.knotId?_value, Sequence.knotId?_value]
  | part h ih => exact ih
  | knot id hplain h ih => rfl

/-- An entry more makes a value no smaller. -/
theorem size_le (h : Adds key form v path v') : v.size ≤ v'.size := by
  induction h with
  | here hkey =>
    simp only [Value.size, Value.entrySizes_append, Value.entrySizes]
    omega
  | field hfield hfirst h ih =>
    simp only [Value.size, Value.entrySizes_append, Value.entrySizes]
    omega
  | member htag hmember h ih => exact ih
  | item s h ih =>
    simp only [Sequence.size_value, Value.sizes_append, Value.sizes]
    omega
  | part h ih => exact ih
  | knot id hplain h ih =>
    simp only [Value.size]
    omega

/-- Putting a value in the place of references that the first value has not keeps the relation. -/
theorem tie (h : Adds key form v path v') {id : Nat} {whole : Value}
    (hv : Value.tie id whole v = v) : Adds key form v path (Value.tie id whole v') := by
  induction h with
  | @here fields es es' x hkey =>
    simp only [Value.tie, Value.tieEntries_eq_map, List.map_append, Value.dict.injEq] at hv
    obtain ⟨hes, hes'⟩ := List.append_inj hv (by simp)
    simp only [Value.tie, Value.tieEntries_eq_map, List.map_append, List.map_cons, hes, hes']
    exact .here hkey
  | @field fields es es' name form v v' path hfield hfirst h ih =>
    simp only [Value.tie, Value.tieEntries_eq_map, List.map_append, List.map_cons,
      Value.dict.injEq] at hv
    obtain ⟨hes, htail⟩ := List.append_inj hv (by simp)
    simp only [List.cons.injEq, Prod.mk.injEq, true_and] at htail
    simp only [Value.tie, Value.tieEntries_eq_map, List.map_append, List.map_cons, hes, htail.2]
    exact .field hfield hfirst (ih htail.1)
  | @member members es es' tag form path htag hmember h ih =>
    have hrecord := ih hv
    simp only [Value.tie] at hrecord ⊢
    exact .member htag hmember hrecord
  | @item item vs ws v v' path s h ih =>
    rw [Sequence.tie_value, List.map_append, List.map_cons] at hv
    obtain ⟨hvs, htail⟩ := List.append_inj (s.value_injective _ hv) (by simp)
    rw [List.cons.injEq] at htail
    rw [Sequence.tie_value, List.map_append, List.map_cons, hvs, htail.2]
    exact .item s (ih htail.1)
  | part h ih => exact .part (ih hv)
  | @knot form v v' path n hplain h ih =>
    simp only [Value.tie] at hv ⊢
    -- Within a knot of the same number nothing is put in place.
    by_cases hn : n = id
    · rw [if_pos hn]
      exact .knot n hplain h
    · rw [if_neg hn] at hv ⊢
      exact .knot n hplain (ih (Value.knot.inj hv).2)

/-- The relation holds of what two values show. -/
theorem reveal (h : Adds key form v path v') : Adds key form v.reveal path v'.reveal := by
  induction h with
  | here hkey => exact .here hkey
  | field hfield hfirst h ih => exact .field hfield hfirst h
  | member htag hmember h ih => exact .member htag hmember h
  | item s h ih =>
    rw [Sequence.reveal_value, Sequence.reveal_value]
    exact .item s h
  | part h ih => exact .part ih
  | knot id hplain h ih =>
    simp only [Value.reveal, hplain]
    exact h.tie (hplain _)

/-- An entry more in a part of a layout is one in the record of that part. -/
theorem of_part (h : Adds key .part v path v') : Adds key Parameter.form v path v' := by
  generalize hform : Form.part = form at h
  induction h with
  | part h ih => exact h
  | knot id hplain h ih => exact .knot id hplain (ih hform)
  | _ => cases hform

/-- Data without records has no place for an entry more. -/
theorem not_leaf : ¬ Adds key .leaf v path v' := by
  intro h
  generalize hform : Form.leaf = form at h
  induction h with
  | knot id hplain h ih => exact ih hform
  | _ => cases hform

end Adds

/-! ## Readers that spot stray keys -/

/-- The fault of a key that is no field, as it is seen from its record. -/
def strayFault : Value → Fault
  | .str name => ⟨[.key name], .extraForbidden⟩
  | .points _ => ⟨[], .stringUnicode⟩
  | key => ⟨[stepOfKey key], .invalidKey⟩

/-- The fault as it is seen from the beginning of a path. -/
def Fault.within (path : List Step) (f : Fault) : Fault := { f with path := path ++ f.path }

/-- A fault seen from its own record is as it is. -/
theorem Fault.within_nil (f : Fault) : f.within [] = f := rfl

/-- A step before a path is a longer path. -/
theorem Fault.under_within (step : Step) (path : List Step) (f : Fault) :
    (f.within path).under step = f.within (step :: path) := rfl

variable {α β γ : Type}

/-- Where nothing is wrong, a stray key is the only thing wrong once it is added. -/
def Reader.Spots (read : Reader α) (form : Form) : Prop :=
  ∀ ⦃key v path v'⦄, Adds key form v path v' → read.faults v = [] →
    read.faults v' = [(strayFault key).within path]

/-- A field is read so that stray keys in it are spotted. -/
structure FieldSpots (field : FieldFaults) (named : String × Form) : Prop where
  name_eq : field.1 = named.1
  spots : ∀ ⦃key v path v'⦄, Adds key named.2 v path v' → field.2 (some v) = [] →
    field.2 (some v') = [(strayFault key).within (.key named.1 :: path)]

/-- Where no record stands there is nothing to spot. -/
theorem spots_leaf (read : Reader α) : read.Spots .leaf :=
  fun _ _ _ _ h _ => absurd h Adds.not_leaf

/-- Where nothing is accepted, there is nothing to spot. -/
theorem spots_fault (kind : FaultKind) (form : Form) :
    Reader.Spots (fun _ => (.fault kind : Checked α)) form := by
  intro key v path v' _ hclean
  simp [Reader.faults] at hclean

/-- A reader that spots stray keys does so below a step. -/
theorem Reader.Spots.faults_under {read : Reader α} {form : Form} (h : read.Spots form)
    {key v v' : Value} {path : List Step} (step : Step) (hadds : Adds key form v path v')
    (hv : (read.faults v).map (·.under step) = []) :
    (read.faults v').map (·.under step) = [(strayFault key).within (step :: path)] := by
  rw [h hadds (List.map_eq_nil_iff.1 hv), List.map_singleton, Fault.under_within]

/-- A reader that spots stray keys does so in a field that must be there. -/
theorem Reader.Spots.required {read : Reader α} {form : Form} (h : read.Spots form)
    (name : String) : FieldSpots (requiredFaults name read) (name, form) :=
  ⟨rfl, fun _ _ _ _ => h.faults_under (.key name)⟩

/-- A reader that spots stray keys does so in a field that may be absent. -/
theorem Reader.Spots.optional {read : Reader α} {form : Form} (h : read.Spots form)
    (name : String) : FieldSpots (optionalFaults name read) (name, form) :=
  ⟨rfl, fun _ _ _ _ => h.faults_under (.key name)⟩

/-! ### Records -/

/-- A key that is no field and no broken text has the fault of a stray key. -/
theorem keyFault?_eq_strayFault {names : List String} {key : Value}
    (hkey : ∀ name, key = .str name → name ∉ names) (hpoints : ∀ ps, key ≠ .points ps) :
    keyFault? names key = some (strayFault key) := by
  cases key with
  | str name => simp [keyFault?, strayFault, hkey name rfl]
  | points ps => exact absurd rfl (hpoints ps)
  | _ => rfl

section Record

variable {names : List String} {build : Entries → Checked α} {fields : List FieldFaults}
  {key v v' : Value} {es es' : Entries}

/-- An entry that is no field is all that is wrong with a record in which nothing else is. -/
theorem faults_record_stray (hbuild : ReadsFields build fields) (hnames : fields.map (·.1) = names)
    (hkey : ∀ name, key = .str name → name ∉ names) {x : Value} (hv : v.reveal = .dict (es ++ es'))
    (hv' : v'.reveal = .dict (es ++ (key, x) :: es'))
    (hclean : Reader.faults (record names build) v = []) :
    Reader.faults (record names build) v' = [strayFault key] := by
  obtain ⟨_, hdict, hbroken, hstrangers, hfaults⟩ := faults_record_eq_nil_iff.1 hclean
  obtain rfl := Value.dict.inj (hdict.symm.trans hv)
  rw [hasBrokenKey_append, Bool.or_eq_false_iff] at hbroken
  rw [strangers_append, List.append_eq_nil_iff] at hstrangers
  rw [faults_record hv']
  -- At a text with surrogates the record is not read at all; any other key is found among the
  -- strangers.
  by_cases hpoints : ∃ ps, key = .points ps
  · obtain ⟨ps, rfl⟩ := hpoints
    have hstop : Entries.hasBrokenKey (es ++ (.points ps, x) :: es') = true := by
      rw [hasBrokenKey_append]
      simp [Entries.hasBrokenKey]
    rw [if_pos hstop]
    rfl
  · have hpoints' : ∀ ps, key ≠ .points ps := fun ps h => hpoints ⟨ps, h⟩
    have hgoes : Entries.hasBrokenKey (es ++ (key, x) :: es') = false := by
      rw [hasBrokenKey_append, hbroken.1, Bool.false_or, ← hbroken.2]
      cases key with
      | points ps => exact absurd rfl (hpoints' ps)
      | _ => rfl
    have hsame : (build (es ++ (key, x) :: es')).faults = (build (es ++ es')).faults := by
      refine hbuild.congr fun field hfield => ?_
      have hne : key ≠ .str field.1 := fun h =>
        hkey _ h (hnames ▸ List.mem_map_of_mem hfield)
      rw [lookup?_append, lookup?_append, lookup?_cons_of_ne hne]
    rw [if_neg (by simp [hgoes]), hsame, hfaults, strangers_append, strangers_cons,
      keyFault?_eq_strayFault hkey hpoints', hstrangers.1, hstrangers.2]
    rfl

/-- Fields in which stray keys are spotted have the names that the form gives them. -/
theorem map_fst_of_fieldSpots {forms : List (String × Form)}
    (h : List.Forall₂ FieldSpots fields forms) : fields.map (·.1) = forms.map (·.1) := by
  induction h with
  | nil => rfl
  | cons hfield h ih => rw [List.map_cons, List.map_cons, hfield.name_eq, ih]

/-- What is wrong within one field is all that is wrong with a record in which nothing else is. -/
theorem faults_record_field {left right : List FieldFaults} {name : String}
    {faults : Option Value → List Fault} {fs : List Fault} {u u' : Value}
    (hbuild : ReadsFields build (left ++ (name, faults) :: right))
    (hothers : ∀ field ∈ left ++ right, field.1 ≠ name) (hfirst : Value.lookup? es name = none)
    (hv : v.reveal = .dict (es ++ (.str name, u) :: es'))
    (hv' : v'.reveal = .dict (es ++ (.str name, u') :: es'))
    (hclean : Reader.faults (record names build) v = [])
    (hfield : faults (some u) = [] → faults (some u') = fs) :
    Reader.faults (record names build) v' = fs := by
  obtain ⟨_, hdict, hbroken, hstrangers, hfaults⟩ := faults_record_eq_nil_iff.1 hclean
  obtain rfl := Value.dict.inj (hdict.symm.trans hv)
  have hbroken' : Entries.hasBrokenKey (es ++ (.str name, u') :: es') = false := by
    rw [← hbroken, hasBrokenKey_append, hasBrokenKey_append]
    rfl
  have hstrangers' : Entries.strangers (es ++ (.str name, u') :: es') names = [] := by
    rw [← hstrangers, strangers_append, strangers_append, strangers_cons, strangers_cons]
  have hfound : ∀ w, Value.lookup? (es ++ (.str name, w) :: es') name = some w := by
    intro w
    rw [lookup?_append, hfirst, lookup?_cons_str, if_pos rfl]
    rfl
  have hsame : ∀ part ⊆ left ++ right,
      part.flatMap (fun field => field.2 (Value.lookup? (es ++ (.str name, u') :: es') field.1)) =
        part.flatMap fun field =>
          field.2 (Value.lookup? (es ++ (.str name, u) :: es') field.1) := by
    intro part hpart
    rw [List.flatMap_def, List.flatMap_def]
    congr 1
    refine List.map_congr_left fun field hfield => ?_
    have hne : ¬ name = field.1 := fun h => hothers field (hpart hfield) h.symm
    rw [lookup?_append, lookup?_append, lookup?_cons_str, lookup?_cons_str, if_neg hne, if_neg hne]
  rw [hbuild, List.flatMap_append, List.flatMap_cons, List.append_eq_nil_iff,
    List.append_eq_nil_iff, hfound] at hfaults
  obtain ⟨hleft, hname, hright⟩ := hfaults
  rw [faults_record hv', if_neg (by simp [hbroken']), hstrangers', hbuild, List.flatMap_append,
    List.flatMap_cons, hfound, hsame left (by simp), hsame right (by simp), hleft, hright]
  simpa using hfield hname

/-- A record spots stray keys if its fields do. -/
theorem record_spots {forms : List (String × Form)} (hbuild : ReadsFields build fields)
    (hfields : List.Forall₂ FieldSpots fields forms) (hnames : names = forms.map (·.1))
    (hnodup : names.Nodup) : (record names build).Spots (.record forms) := by
  intro key v path v' hadds hclean
  obtain ⟨es, hdict, -⟩ := faults_record_eq_nil_iff.1 hclean
  have hmap : fields.map (·.1) = names := hnames ▸ map_fst_of_fieldSpots hfields
  have hshown := hadds.reveal
  rw [hdict] at hshown
  generalize hv' : v'.reveal = shown at hshown
  cases hshown with
  | here hkey =>
    rw [← hnames] at hkey
    rw [faults_record_stray hbuild hmap hkey hdict hv' hclean, Fault.within_nil]
  | @field _ es es' name form u u' path hform hfirst h =>
    obtain ⟨faults, hfaults, hspots⟩ := exists_lookup_of_forall₂
      (fun hrow => (FieldSpots.name_eq hrow).symm) hfields.flip hform
    obtain ⟨left, right, rfl, -⟩ := List.lookup_eq_some_iff.1 hfaults
    rw [← hmap, List.map_append, List.map_cons, List.nodup_middle, List.nodup_cons,
      ← List.map_append] at hnodup
    refine faults_record_field hbuild ?_ hfirst hdict hv' hclean (hspots.spots h)
    rintro field hfield rfl
    exact hnodup.1 (List.mem_map.2 ⟨field, hfield, rfl⟩)

end Record

/-! ### Unions and lists -/

/-- A name that is found is one of the names. -/
theorem mem_map_fst_of_lookup {β : Type} {rows : List (String × β)} {name : String} {b : β}
    (h : rows.lookup name = some b) : name ∈ rows.map (·.1) := by
  obtain ⟨left, right, rfl, -⟩ := List.lookup_eq_some_iff.1 h
  simp

/-- The tag of a record stays what it is. -/
theorem Adds.lookup?_tag {key : Value} {form : Form} {es es' : Entries} {path : List Step}
    (h : Adds key form (.dict es) path (.dict es')) (hform : form.HasTag) :
    Value.lookup? es' "type" = Value.lookup? es "type" := by
  cases form with
  | record fields =>
    have htype : fields.lookup "type" = some .leaf := hform
    cases h with
    | here hkey =>
      have hne : key ≠ .str "type" := fun heq => hkey _ heq (mem_map_fst_of_lookup htype)
      rw [lookup?_append, lookup?_append, lookup?_cons_of_ne hne]
    | @field _ es es' name form v v' path hfield hfirst h =>
      by_cases hname : name = "type"
      · rw [hname, htype] at hfield
        cases hfield
        exact absurd h Adds.not_leaf
      · rw [lookup?_append, lookup?_append, lookup?_cons_str, lookup?_cons_str, if_neg hname,
          if_neg hname]
  | _ => exact absurd hform id

/-- A member of a union is a record with a tag, and stray keys in it are spotted. -/
structure MemberSpots (member : String × Reader α) (named : String × Form) : Prop where
  name_eq : member.1 = named.1
  hasTag : named.2.HasTag
  spots : member.2.Spots named.2

/-- A union spots stray keys if its members do. -/
theorem tagged_spots {members : List (String × Reader α)} {forms : List (String × Form)}
    (hmembers : List.Forall₂ MemberSpots members forms) :
    (tagged members).Spots (.union forms) := by
  intro key v path v' hadds hclean
  obtain ⟨es, tag, read, hdict, htag, hread, hfaults⟩ := exists_member_of_faults_tagged hclean
  obtain ⟨form, hform, hmember⟩ :=
    exists_lookup_of_forall₂ (fun hrow => MemberSpots.name_eq hrow) hmembers hread
  have hshown := hadds.reveal
  rw [hdict] at hshown
  generalize hv' : v'.reveal = shown at hshown
  cases hshown with
  | @member _ es es' tag' form' path htag' hform' h =>
    cases htag.symm.trans htag'
    cases hform.symm.trans hform'
    rw [faults_tagged hv' ((h.lookup?_tag hmember.hasTag).trans htag) hread]
    exact hmember.spots.faults_under (.key tag) h (List.map_eq_nil_iff.2 hfaults)

/-- A list spots stray keys if the reader of its items does. -/
theorem readList_spots {read : Reader α} {form : Form} (h : read.Spots form) :
    (readList read).Spots (.list form) := by
  intro key v path v' hadds hclean
  have hshown := hadds.reveal
  generalize hv : v.reveal = shown, hv' : v'.reveal = shown' at hshown
  cases hshown with
  | @item _ vs ws u u' path s hitem =>
    rw [Reader.faults, s.readList_value _ read hv, faults_readItems_append, faults_readItems_cons,
      Nat.zero_add, List.append_eq_nil_iff, List.append_eq_nil_iff] at hclean
    obtain ⟨hvs, hu, hws⟩ := hclean
    rw [Reader.faults, s.readList_value _ read hv', faults_readItems_append, faults_readItems_cons,
      Nat.zero_add, hvs, hws, h.faults_under _ hitem hu]
    rfl
  | knot id hplain h =>
    -- What a knot shows is a knot again, which is no list.
    have hrefused : readList read v = .fault .listType := by simp only [readList, hv]
    simp [Reader.faults, hrefused] at hclean

end Schema

/-! ## Layouts -/

/-- A tag as a member of a record, in which there is nothing to spot. -/
theorem tag_spots (tag : String) :
    FieldSpots (optionalFaults "type" (readTag tag)) ("type", .leaf) :=
  (spots_leaf _).optional "type"

/-- A record with a tag alone spots stray keys. -/
theorem readBare_spots {α : Type} (tag : String) (a : α) : (readBare tag a).Spots .bare :=
  record_spots ((readsFields_tag tag).map _) (.cons (tag_spots tag) .nil) rfl (by simp)

namespace ParameterKind

/-- A choice spots stray keys. -/
theorem readChoice_spots :
    readChoice.Spots (.record [("type", .leaf), ("values", .leaf)]) :=
  record_spots ((readsFields_tag "Enum").map2 (readsFields_required "values" _) _)
    (.cons (tag_spots "Enum") (.cons ((spots_leaf _).required "values") .nil)) rfl (by simp)

/-- A selector spots stray keys if the parts of its layouts do. -/
theorem readSelector_spots {part : Reader Parameter} (hpart : part.Spots .part) :
    (readSelector part).Spots (.record [("type", .leaf), ("options", .list (.list .part))]) :=
  record_spots ((readsFields_tag "Selector").map2 (readsFields_required "options" _) _)
    (.cons (tag_spots "Selector")
      (.cons ((readList_spots (readList_spots hpart)).required "options") .nil)) rfl (by simp)

/-- The kind of a parameter spots stray keys if the parts of layouts do. -/
theorem readWith_spots {part : Reader Parameter} (hpart : part.Spots .part) :
    (readWith part).Spots ParameterKind.form := by
  have hbare : ∀ (tag : String) (kind : ParameterKind),
      MemberSpots (tag, readBare tag kind) (tag, .bare) :=
    fun tag kind => ⟨rfl, rfl, readBare_spots tag kind⟩
  exact tagged_spots (.cons (hbare _ _) (.cons (hbare _ _) (.cons ⟨rfl, rfl, readChoice_spots⟩
    (.cons ⟨rfl, rfl, readSelector_spots hpart⟩ (.cons (hbare _ _) (.cons (hbare _ _)
      (.cons (hbare _ _) (.cons (hbare _ _) .nil))))))))

/-- A selector is without fault for a reader of parts wherever it is for one that accepts less. -/
theorem readSelector_within {part part' : Reader Parameter} (h : part.Within part') :
    (readSelector part).Within (readSelector part') := by
  refine record_within fun es hes => ?_
  simp only [Checked.faults_map2, List.append_eq_nil_iff] at hes ⊢
  exact ⟨hes.1, h.readList.readList.required hes.2⟩

/-- The kind of a parameter is without fault for a reader of parts wherever it is for one that
accepts less. -/
theorem readWith_within {part part' : Reader Parameter} (h : part.Within part') :
    (readWith part).Within (readWith part') := by
  have hsame : ∀ member : String × Reader ParameterKind, MemberWithin member member :=
    fun _ => ⟨rfl, .refl _⟩
  exact tagged_within (.cons (hsame _) (.cons (hsame _) (.cons (hsame _)
    (.cons ⟨rfl, readSelector_within h⟩ (.cons (hsame _) (.cons (hsame _) (.cons (hsame _)
      (.cons (hsame _) .nil))))))))

end ParameterKind

namespace Parameter

/-- A position spots stray keys if the parts of layouts do. -/
theorem readField_spots {part : Reader Parameter} (hpart : part.Spots .part) :
    (readField part).Spots (.record [("type", .leaf), ("index", .leaf), ("name", .leaf),
      ("kind", ParameterKind.form)]) :=
  record_spots
    ((readsFields_tag "Parameter").map2 ((readsFields_required "index" _).both
      ((readsFields_required "name" _).both (readsFields_required "kind" _))) _)
    (.cons (tag_spots "Parameter") (.cons ((spots_leaf _).required "index")
      (.cons ((spots_leaf _).required "name")
        (.cons ((ParameterKind.readWith_spots hpart).required "kind") .nil)))) rfl (by simp)

/-- A label spots stray keys. -/
theorem readLabel_spots : readLabel.Spots (.record [("type", .leaf), ("text", .leaf)]) :=
  record_spots ((readsFields_tag "Label").map2 (readsFields_required "text" _) _)
    (.cons (tag_spots "Label") (.cons ((spots_leaf _).required "text") .nil)) rfl (by simp)

/-- A part of a layout spots stray keys if a position does. -/
theorem readWith_spots {position : Reader Parameter}
    (hposition : position.Spots (.record [("type", .leaf), ("index", .leaf), ("name", .leaf),
      ("kind", ParameterKind.form)])) : (readWith position).Spots Parameter.form :=
  tagged_spots (.cons ⟨rfl, rfl, hposition⟩ (.cons ⟨rfl, rfl, readLabel_spots⟩ .nil))

/-- The reader of a position, at the level above that of its parts. -/
def readPosition (n : Nat) (outer : List Nat) (id? : Option Nat) : Reader Parameter :=
  if id?.any outer.contains then fun _ => .fault .recursionLoop
  else readField (readAt n (id?.toList ++ outer))

/-- A level reads a part with the level below it for the parts of its layouts. -/
theorem readAt_succ_eq (n : Nat) (outer : List Nat) (v : Value) :
    readAt (n + 1) outer v = readWith (readPosition n outer v.knotId?) v := rfl

/-- Stray keys are spotted at every level. -/
theorem readAt_spots (n : Nat) (outer : List Nat) : (readAt n outer).Spots .part := by
  induction n generalizing outer with
  | zero => exact spots_fault .recursionLoop .part
  | succ n ih =>
    intro key v path v' hadds hclean
    have hposition : (readPosition n outer v.knotId?).Spots (.record [("type", .leaf),
        ("index", .leaf), ("name", .leaf), ("kind", ParameterKind.form)]) := by
      unfold readPosition
      split
      · exact spots_fault .recursionLoop _
      · exact readField_spots (ih _)
    rw [Reader.faults, readAt_succ_eq] at hclean ⊢
    rw [hadds.knotId?_eq]
    exact readWith_spots hposition hadds.of_part hclean

/-- A position is without fault for a reader of parts wherever it is for one that accepts less. -/
theorem readField_within {part part' : Reader Parameter} (h : part.Within part') :
    (readField part).Within (readField part') := by
  refine record_within fun es hes => ?_
  simp only [Checked.faults_map2, Checked.faults_both, List.append_eq_nil_iff] at hes ⊢
  obtain ⟨htag, hindex, hname, hkind⟩ := hes
  exact ⟨htag, hindex, hname, (ParameterKind.readWith_within h).required hkind⟩

/-- A part of a layout is without fault for a reader of positions wherever it is for one that
accepts less. -/
theorem readWith_within {position position' : Reader Parameter} (h : position.Within position') :
    (readWith position).Within (readWith position') :=
  tagged_within (.cons ⟨rfl, h⟩ (.cons ⟨rfl, .refl _⟩ .nil))

/-- A level accepts what the levels below accept. -/
theorem readAt_within {n m : Nat} (h : n ≤ m) (outer : List Nat) :
    (readAt n outer).Within (readAt m outer) := by
  induction n generalizing m outer with
  | zero => exact .of_fault .recursionLoop _
  | succ n ih =>
    obtain ⟨m, rfl⟩ : ∃ k, m = k + 1 := ⟨m - 1, by omega⟩
    intro v hclean
    rw [Reader.faults, readAt_succ_eq] at hclean ⊢
    have hposition : (readPosition n outer v.knotId?).Within (readPosition m outer v.knotId?) := by
      unfold readPosition
      split
      · exact .refl _
      · exact readField_within (ih (by omega) _)
    exact readWith_within hposition v hclean

/-- Stray keys are spotted in a part of a layout, at any depth. -/
theorem read_spots : Parameter.read.Spots .part := by
  intro key v path v' hadds hclean
  -- The two values are read at different levels, since the second is the larger one.
  exact readAt_spots v'.size [] hadds (readAt_within hadds.size_le [] v hclean)

end Parameter

/-! ## Descriptors -/

/-- A condition spots stray keys. -/
theorem Condition.read_spots : Condition.read.Spots Condition.form :=
  record_spots ((readsFields_required "parameter" _).map2 (readsFields_optional "kind" _ _) _)
    (.cons ((spots_leaf _).required "parameter") (.cons ((spots_leaf _).optional "kind") .nil)) rfl
    (by simp)

/-- A terminator spots stray keys. -/
theorem Terminator.read_spots : Terminator.read.Spots Terminator.form :=
  record_spots ((readsFields_required "code" _).map2 (readsFields_required "name" _) _)
    (.cons ((spots_leaf _).required "code") (.cons ((spots_leaf _).required "name") .nil)) rfl
    (by simp)

/-- An arm spots stray keys, also in its condition. -/
theorem Branch.read_spots : Branch.read.Spots Branch.form :=
  record_spots
    (((readsFields_required "name" _).both (readsFields_required "code" _)).map2
      ((readsFields_required "condition" _).both
        (readsFields_optional "duplicate_parameter" _ _)) _)
    (.cons ((spots_leaf _).required "name") (.cons ((spots_leaf _).required "code")
      (.cons (Condition.read_spots.required "condition")
        (.cons ((spots_leaf _).optional "duplicate_parameter") .nil)))) rfl (by simp)

/-- A scope spots stray keys, also in its parameters, arms and terminator. -/
theorem ScopeKind.read_spots : ScopeKind.read.Spots ScopeKind.form :=
  record_spots
    ((readsFields_tag "Branch").map2
      (((readsFields_optional "parameters" _ _).both (readsFields_optional "branches" _ _)).both
        ((readsFields_required "terminator" _).both
          (readsFields_optional "command_contains_branch" _ _))) _)
    (.cons (tag_spots "Branch")
      (.cons ((readList_spots Parameter.read_spots).optional "parameters")
        (.cons ((readList_spots Branch.read_spots).optional "branches")
          (.cons (Terminator.read_spots.required "terminator")
            (.cons ((spots_leaf _).optional "command_contains_branch") .nil))))) rfl (by simp)

/-- A command with a continuation spots stray keys, whichever of the two it is. -/
theorem readContinuation_spots (tag : String) (make : CodeSlot → CommandKind) :
    (readContinuation tag make).Spots (.record [("type", .leaf), ("continuation", .leaf)]) :=
  record_spots ((readsFields_tag tag).map2 (readsFields_required "continuation" _) _)
    (.cons (tag_spots tag) (.cons ((spots_leaf _).required "continuation") .nil)) rfl (by simp)

namespace CommandKind

/-- A scope as a kind of command spots stray keys as it does alone. -/
theorem readScope_spots : readScope.Spots ScopeKind.form := by
  intro key v path v' hadds hclean
  rw [Reader.faults, readScope, Checked.faults_map] at hclean ⊢
  exact ScopeKind.read_spots hadds hclean

/-- A regular command spots stray keys, also in its parameters. -/
theorem readPlain_spots :
    readPlain.Spots (.record [("type", .leaf), ("parameters", .list .part)]) :=
  record_spots ((readsFields_tag "Regular").map2 (readsFields_optional "parameters" _ _) _)
    (.cons (tag_spots "Regular")
      (.cons ((readList_spots Parameter.read_spots).optional "parameters") .nil)) rfl (by simp)

/-- Every kind of command spots stray keys. -/
theorem read_spots : CommandKind.read.Spots CommandKind.form :=
  tagged_spots (.cons ⟨rfl, rfl, readScope_spots⟩
    (.cons ⟨rfl, rfl, readContinuation_spots "Multi" _⟩ (.cons ⟨rfl, rfl, readPlain_spots⟩
      (.cons ⟨rfl, rfl, readContinuation_spots "MoveRoute" _⟩
        (.cons ⟨rfl, rfl, readBare_spots _ _⟩ .nil)))))

end CommandKind

/-- Loading ends at an entry whose data is refused, if nothing is wrong before it. The error has its
code, and it has the faults of the data if nothing is wrong with the code. -/
theorem CommandSet.load_of_faulty {data key raw : Value} {source : String} {before after : Entries}
    {code : Code} {set : CommandSet} {faults : List Fault}
    (hdata : data.reveal = .dict (before ++ (key, raw) :: after))
    (hbefore : load (.dict before) source = .ok set) (hkey : KeyReading.ofValue key = .code code)
    (hname : key.IsNameable) (hraw : Descriptor.read raw = .faulty faults) :
    ∃ f, load data source = .error (.rejected source f) ∧ f.code? = some code ∧
      (code.InRange → code ∉ before.codes → f = .invalid code faults) := by
  have hgive : EntriesGive [] before set.entries := entriesGive_of_load rfl hbefore
  have hfinite : ∀ x ∈ before, KeyReading.ofValue x.1 ≠ .infinite :=
    fun x hx => (hgive.isNameable x hx).ne_infinite
  have hload : ∀ {f}, EntryFails before.codes (key, raw) f →
      load data source = .error (.rejected source f) :=
    fun hfails => load_of_firstBad hdata ⟨⟨after, rfl⟩, hgive.areGood, hfails⟩ hfinite hname
  by_cases hcode : code.InRange ∧ code ∉ before.codes
  · have hfails : EntryFails before.codes (key, raw) (.invalid code faults) :=
      .invalid hkey hcode.1 hcode.2 hraw
    exact ⟨_, hload hfails, rfl, fun _ _ => rfl⟩
  · obtain ⟨c, d, hgives⟩ | ⟨f, hfails⟩ :=
      exists_gives_or_exists_fails before.codes (e := (key, raw)) hname.ne_infinite
    · cases hraw.symm.trans hgives.read
    · have hcode? : f.code? = some code := by rw [hfails.code?_eq, hkey]; rfl
      exact ⟨f, hload hfails, hcode?, fun hrange hfree => absurd ⟨hrange, hfree⟩ hcode⟩

namespace Descriptor

/-- A descriptor spots stray keys at any depth. -/
theorem read_spots : Descriptor.read.Spots Descriptor.form :=
  record_spots ((readsFields_required "name" _).map2 (readsFields_required "kind" _) _)
    (.cons ((spots_leaf _).required "name") (.cons (CommandKind.read_spots.required "kind") .nil))
    rfl (by simp)

/-- A descriptor with an entry more in one of its records is refused for this key alone. -/
theorem read_of_adds {key v v' : Value} {path : List Step} {d : Descriptor}
    (hread : Descriptor.read v = .ok d) (hadds : Adds key Descriptor.form v path v') :
    Descriptor.read v' = .faulty [(strayFault key).within path] := by
  have hclean : Reader.faults Descriptor.read v = [] := by rw [Reader.faults, hread]; rfl
  exact Checked.eq_faulty_of_faults (read_spots hadds hclean) (by simp)

/-- A position whose kind is a selector, with a part in its second layout. -/
def around (part : Value) : Value :=
  .tagged "Parameter" [("index", .int 0), ("name", .str "B"),
    ("kind", .tagged "Selector" [("options", .list [.list [], .tuple [part]])])]

/-- A label within two selectors. Its record has some further entries. -/
def nestedSample (extra : Entries) : Value :=
  .record [("name", .str "A"), ("kind", .tagged "Regular" [("parameters", .list [around (around
    (.dict ([(.str "type", .str "Label"), (.str "text", .str "C")] ++ extra)))])])]

/-- The path from such a position to the part in it. -/
def aroundPath : List Step :=
  [.key "Parameter", .key "kind", .key "Selector", .key "options", .number 1, .number 0]

/-- The path to the record of the label. -/
def nestedSamplePath : List Step :=
  [.key "kind", .key "Regular", .key "parameters", .number 0] ++
    (aroundPath ++ (aroundPath ++ [.key "Label"]))

/-- A stray key in a part is one in the position around it. -/
theorem adds_around {key v v' : Value} {path : List Step} (h : Adds key .part v path v') :
    Adds key .part (around v) (aroundPath ++ path) (around v') := by
  have hoptions : Adds key (.list (.list .part)) (.list [.list [], .tuple [v]])
      (.number 1 :: .number 0 :: path) (.list [.list [], .tuple [v']]) :=
    @Adds.item key _ [.list []] [] _ _ _ .list (@Adds.item key _ [] [] _ _ _ .tuple h)
  have hkind : Adds key ParameterKind.form
      (.tagged "Selector" [("options", .list [.list [], .tuple [v]])])
      (.key "Selector" :: .key "options" :: .number 1 :: .number 0 :: path)
      (.tagged "Selector" [("options", .list [.list [], .tuple [v']])]) :=
    .member rfl rfl (@Adds.field key _ [_] [] _ _ _ _ _ rfl rfl hoptions)
  exact .part (.member rfl rfl (@Adds.field key _ [_, _, _] [] _ _ _ _ _ rfl rfl hkind))

/-- A key that a label does not have is a stray key of the sample. -/
theorem adds_nestedSample {key : Value} (hkey : ∀ name, key = .str name → name ∉ ["type", "text"])
    (x : Value) :
    Adds key Descriptor.form (nestedSample []) nestedSamplePath (nestedSample [(key, x)]) := by
  have hlabel : Adds key .part (.tagged "Label" [("text", .str "C")]) [.key "Label"]
      (.dict ([(.str "type", .str "Label"), (.str "text", .str "C")] ++ [(key, x)])) :=
    .part (.member rfl rfl (@Adds.here key _ [_, _] [] x hkey))
  have hparts : Adds key (.list .part) _ _ _ :=
    @Adds.item key _ [] [] _ _ _ .list (adds_around (adds_around hlabel))
  have hkind : Adds key CommandKind.form _ _ _ :=
    .member rfl rfl
      (@Adds.field key _ [(.str "type", .str "Regular")] [] "parameters" _ _ _ _ rfl rfl hparts)
  exact @Adds.field key _ [(.str "name", .str "A")] [] "kind" _ _ _ _ rfl rfl hkind

end Descriptor

end PageOutline
