import PageOutline.Schema.Scalar
import PageOutline.Value.Literal

/-!
# Records and unions

A record is a dictionary with known fields: some are required, the others have a value of their own
when they are absent, and every other key is refused. A union is a dictionary whose field `type`
names the record that it is.
-/

namespace PageOutline.Schema

/-- The entries of a dictionary that is read as a record. -/
abbrev Entries := List (Value × Value)

/-- Reads a field that has to be there. -/
def Entries.required {α : Type} (es : Entries) (name : String) (read : Reader α) : Checked α :=
  match Value.lookup? es name with
  | some v => (read v).under (.key name)
  | none => .faulty [⟨[.key name], .missing⟩]

/-- Reads a field that may be absent. -/
def Entries.optional {α : Type} (es : Entries) (name : String) (absent : α) (read : Reader α) :
    Checked α :=
  match Value.lookup? es name with
  | some v => (read v).under (.key name)
  | none => .ok absent

/-- The field that names the kind of a record; when it is there, it has to be right. -/
def Entries.tag (es : Entries) (name : String) : Checked Unit :=
  es.optional "type" () fun v =>
    match v with
    | .str s => if s = name then .ok () else .fault .literalError
    | _ => .fault .literalError

/-- The step of a path at a key that is no text: a number of 64 bits, or the key's literal. -/
def stepOfKey (key : Value) : Step :=
  let shown := if key.hasLiteral then key.literal else s!"<unprintable {key.kindName} object>"
  match key.asInt? with
  | some i => if isSmallInt i then .number i else .key shown
  | none => .key shown

/-- The fault of one key that is no field. -/
def keyFault? (fields : List String) : Value → Option Fault
  | .str name => if fields.contains name then none else some ⟨[.key name], .extraForbidden⟩
  | v => some ⟨[stepOfKey v], .invalidKey⟩

/-- The faults of all keys that are no fields. -/
def Entries.strangers (es : Entries) (fields : List String) : List Fault :=
  es.filterMap fun e => keyFault? fields e.1

/-- Whether some key is a text with surrogates, at which the reading of a record stops. -/
def Entries.hasBrokenKey (es : Entries) : Bool :=
  es.any fun e => match e.1 with
    | .points _ => true
    | _ => false

/-- Reads a record with the given fields. -/
def record {α : Type} (fields : List String) (build : Entries → Checked α) : Reader α := fun v =>
  match v.reveal with
  | .dict es =>
    if Entries.hasBrokenKey es then .fault .stringUnicode
    else (build es).alongside (Entries.strangers es fields)
  | _ => .fault .modelType

/-- Reads a union of records by the field `type`. The tag becomes a step of the path. -/
def tagged {α : Type} (members : List (String × Reader α)) : Reader α := fun v =>
  match v.reveal with
  | .dict es =>
    match Value.lookup? es "type" with
    | none => .fault .unionTagNotFound
    | some (.str name) =>
      match members.lookup name with
      | some read => (read (.dict es)).under (.key name)
      | none => .fault .unionTagInvalid
    | some _ => .fault .unionTagInvalid
  | _ => .fault .modelAttributesType

end PageOutline.Schema
