import PageOutline.Table
import PageOutline.Descriptor.Dump
import PageOutline.Descriptor.Reader

/-!
# Command sets

A command set gives descriptors to codes. `CommandSet.load` reads one from data: entries are taken
in order, each is checked for its key, its range, a code used before and its descriptor, and the
first entry that fails decides the error.
-/

namespace PageOutline

/-- Descriptors by code, in the order in which they were added. -/
abbrev CommandSet := Table Descriptor

/-- What a key of a command set stands for. -/
inductive KeyReading where
  | code (n : Int)
  | notInteger
  /-- An infinity, which is a number but has no integer part. -/
  | infinite
deriving DecidableEq

/-- Reads a key as an integer: numbers are cut off toward zero, and texts and ASCII bytes are read
as numerals. -/
def KeyReading.ofValue : Value → KeyReading
  | .bool b => .code (if b then 1 else 0)
  | .int i => .code i
  | .float x =>
    match x with
    | .infinity _ => .infinite
    | x =>
      match x.truncate? with
      | some i => .code i
      | none => .notInteger
  | .str s =>
    match Text.decimalInteger? s with
    | some i => .code i
    | none => .notInteger
  | .bytes b =>
    if b.all (· < 128) then
      match Text.decimalInteger? (String.ofList (b.map fun x => Char.ofNat x.toNat)) with
      | some i => .code i
      | none => .notInteger
    else .notInteger
  | _ => .notInteger

/-- Why descriptors cannot be loaded. -/
inductive LoadFailure where
  | notMapping (kind : String)
  | badKey (key : Value)
  | outOfRange (code : Int)
  | definedTwice (code : Code)
  | invalid (code : Code) (faults : List Schema.Fault)
  | badYaml

namespace LoadFailure

/-- The code of the entry at fault, once its key has been read. -/
def code? : LoadFailure → Option Int
  | .notMapping _ => none
  | .badKey _ => none
  | .outOfRange code => some code
  | .definedTwice code => some code
  | .invalid code _ => some code
  | .badYaml => none

/-- The reason in words; faults of a descriptor and of YAML text are reported in their own form. -/
def reason? : LoadFailure → Option String
  | .notMapping kind => some s!"expected a mapping, got {kind}"
  | .badKey key => some ("invalid command code " ++ key.literal)
  | .outOfRange _ => some "command code out of range"
  | .definedTwice _ => some "command code defined twice"
  | .invalid _ _ => none
  | .badYaml => none

/-- The whole message for descriptors from some source. The parts are texts already. -/
def message (source reason : String) (code? : Option String) : String :=
  let place := match code? with
    | some code => source ++ " (command " ++ code ++ ")"
    | none => source
  "Cannot load command descriptors from " ++ place ++ ": " ++ reason

/-- The whole message of a failure that has a reason in words. -/
def messageFor? (source : String) (f : LoadFailure) : Option String :=
  f.reason?.map fun reason => message source reason (f.code?.map toString)

end LoadFailure

/-- Why an entry cannot be added. Besides the failures that are reported with the source there are
two of their own kind: an infinite key, and a key or code with more digits than a message may
have. -/
inductive EntryError where
  | rejected (failure : LoadFailure)
  | infiniteKey
  | unprintable

/-- How loading descriptors ends without a command set. -/
inductive LoadError where
  | rejected (source : String) (failure : LoadFailure)
  | infiniteKey
  | unprintable

/-- The error of an entry of data from some source. -/
def EntryError.inSource (source : String) : EntryError → LoadError
  | .rejected failure => .rejected source failure
  | .infiniteKey => .infiniteKey
  | .unprintable => .unprintable

namespace CommandSet

/-- The failure that a message names a value for, if the value can be printed. -/
def naming (v : Value) (failure : LoadFailure) : EntryError :=
  if v.hasLiteral then .rejected failure else .unprintable

/-- Adds one entry of raw data to the set read so far. -/
def addEntry (set : CommandSet) (key raw : Value) : Except EntryError CommandSet :=
  match KeyReading.ofValue key with
  | .infinite => .error .infiniteKey
  | .notInteger => .error (naming key (.badKey key))
  | .code n =>
    if ¬ Code.InRange n then .error (naming (.int n) (.outOfRange n))
    else if set.contains n then .error (.rejected (.definedTwice n))
    else
      match Descriptor.read raw with
      | .ok d => .ok (set.insert n d)
      | .faulty faults => .error (.rejected (.invalid n faults))

/-- Adds entries in order, up to the first that fails. -/
def addEntries : CommandSet → List (Value × Value) → Except EntryError CommandSet
  | set, [] => .ok set
  | set, (key, raw) :: rest =>
    match set.addEntry key raw with
    | .ok set => addEntries set rest
    | .error e => .error e

/-- Reads a command set from data; null is the empty set. -/
def load (data : Value) (source : String) : Except LoadError CommandSet :=
  match data.reveal with
  | .null => .ok .empty
  | .dict es => (addEntries .empty es).mapError (·.inSource source)
  | v => .error (.rejected source (.notMapping v.kindName))

end CommandSet

end PageOutline
