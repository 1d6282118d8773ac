import PageOutline.Database
import PageOutline.Proofs.Loading

/-!
# Commands registered one call after another

A project may register commands in many calls, each with data of its own, and some of the data may
be refused. What a code means afterwards is told by the last call that was not refused and whose
data has the code, then by the commands that the database was made with, the project's before the
engine's. A refused call leaves no trace, wherever in its data the bad entry stands, and no call
touches the engine's commands.
-/

namespace PageOutline

open Schema

/-- A call that registers commands: the data and the name of its source. -/
structure Registration where
  data : Value
  source : String

namespace Registration

variable {r : Registration} {set : CommandSet} {code : Code} {d : Descriptor}

/-- The set that a call registers; nothing if its data is refused. -/
def set? (r : Registration) : Option CommandSet := (CommandSet.load r.data r.source).toOption

/-- What a call registers for a code. -/
def find? (r : Registration) (code : Code) : Option Descriptor := r.set?.bind (·.find? code)

/-- The data of a call has an entry whose key is the code and which is read as the descriptor. -/
def Describes (r : Registration) (code : Code) (d : Descriptor) : Prop :=
  ∃ es : Entries, r.data.reveal = .dict es ∧
    ∃ e ∈ es, KeyReading.ofValue e.1 = .code code ∧ Descriptor.read e.2 = .ok d

/-- A call registers a set if its data is loaded as that set. -/
theorem set?_eq_some_iff : r.set? = some set ↔ CommandSet.load r.data r.source = .ok set := by
  unfold set?
  cases CommandSet.load r.data r.source <;> simp [Except.toOption]

/-- A call that is not refused registers what its set has for a code. -/
theorem find?_eq_of_set? (hset : r.set? = some set) (code : Code) :
    r.find? code = set.find? code := by
  rw [find?, hset, Option.bind_some]

/-- A call registers for a code what its data has for it, unless the data is refused. -/
theorem find?_eq_some_iff_describes :
    r.find? code = some d ↔ (∃ set, r.set? = some set) ∧ r.Describes code d := by
  cases hset : r.set? with
  | none => simp [find?, hset]
  | some set =>
    have hload := set?_eq_some_iff.1 hset
    rw [find?_eq_of_set? hset, Table.find?_eq_some_iff (CommandSet.nodup_keys_of_load hload)]
    by_cases hnull : r.data.reveal = .null
    · cases hload.symm.trans (CommandSet.load_of_null hnull)
      simp [Table.empty, Describes, hnull]
    by_cases hdict : ∃ es, r.data.reveal = .dict es
    · obtain ⟨es, hdata⟩ := hdict
      -- The entries and what they give have the same readings.
      have hmem : (KeyReading.code code, Checked.ok d) ∈
            (es.map fun e => (KeyReading.ofValue e.1, Descriptor.read e.2)) ↔
          (KeyReading.code code, Checked.ok d) ∈
            (set.entries.map fun row => (KeyReading.code row.1, Checked.ok row.2)) := by
        rw [(CommandSet.entriesGive_of_load hdata hload).map_eq]
      simpa [Describes, hdata, and_assoc, eq_comm] using hmem.symm
    · cases hload.symm.trans
        (CommandSet.load_of_not_dict hnull fun es hdata => hdict ⟨es, hdata⟩)

end Registration

namespace Database

variable {db : Database} {r : Registration} {set : CommandSet}

/-- The database after a call, whether or not its data is refused. -/
def register (db : Database) (r : Registration) : Database :=
  match db.addUserCommands r.data r.source with
  | .ok db => db
  | .error _ => db

/-- The database after some calls. -/
def registerAll (db : Database) (rs : List Registration) : Database := rs.foldl register db

/-- A call that is not refused sets the project's commands and leaves the engine's alone. -/
theorem register_of_some (hset : r.set? = some set) :
    db.register r = { db with user := db.user.merge (set.map some) } := by
  rw [register, addUserCommands, Registration.set?_eq_some_iff.1 hset]
  rfl

/-- A call that is refused leaves the database as it is. -/
theorem register_of_none (hset : r.set? = none) : db.register r = db := by
  unfold Registration.set? at hset
  unfold register addUserCommands
  cases hload : CommandSet.load r.data r.source with
  | ok set => rw [hload] at hset; cases hset
  | error e => rfl

/-- A call leaves the engine's commands alone. -/
theorem default_register (db : Database) (r : Registration) :
    (db.register r).default = db.default := by
  cases hset : r.set? with
  | none => rw [register_of_none hset]
  | some set => rw [register_of_some hset]

/-- After a call a code means what the call registers for it, or else what it meant before. -/
theorem get?_register (db : Database) (r : Registration) (code : Code) :
    (db.register r).get? code = (r.find? code).or (db.get? code) := by
  cases hset : r.set? with
  | none =>
    rw [register_of_none hset, Registration.find?, hset]
    rfl
  | some set =>
    have hload := Registration.set?_eq_some_iff.1 hset
    have hkeys : (set.map some).keys.Nodup := by
      have hnodup := CommandSet.nodup_keys_of_load hload
      simpa [Table.keys, Table.map, Function.comp_def] using hnodup
    rw [register_of_some hset, Registration.find?_eq_of_set? hset]
    simp only [get?, Table.find?_merge db.user hkeys, Table.find?_map]
    cases set.find? code <;> rfl

variable (db) (rs : List Registration)

/-- Calls in a row may be grouped in any way. -/
theorem registerAll_append (rs' : List Registration) :
    db.registerAll (rs ++ rs') = (db.registerAll rs).registerAll rs' :=
  List.foldl_append

/-- Whatever is registered, the engine's commands stay what they are. -/
theorem default_registerAll : (db.registerAll rs).default = db.default := by
  induction rs generalizing db with
  | nil => rfl
  | cons r rs ih => exact (ih (db.register r)).trans (default_register db r)

/-- After some calls a code means what the last of them that registers anything for it says, or else
what it meant before. -/
theorem get?_registerAll (code : Code) :
    (db.registerAll rs).get? code =
      (rs.reverse.findSome? (·.find? code)).or (db.get? code) := by
  induction rs generalizing db with
  | nil => rfl
  | cons r rs ih =>
    have hlast : [r].findSome? (·.find? code) = r.find? code := by
      rw [List.findSome?_cons]
      cases r.find? code <;> rfl
    rw [List.reverse_cons, List.findSome?_append, hlast, Option.or_assoc, ← get?_register]
    exact ih (db.register r)

/-- A database that was just made has the project's commands before the engine's. -/
theorem get?_of_create {version : EngineVersion} {user : CommandSet} {default? : Option CommandSet}
    {db : Database} (hcreate : create version user default? = .ok db) (code : Code) :
    db.get? code = (user.find? code).or (db.default.find? code) := by
  have hdb : db.user = user.map some := by
    unfold create at hcreate
    cases default? with
    | some default => cases hcreate; rfl
    | none =>
      cases hstock : version.stock with
      | error e => rw [hstock] at hcreate; cases hcreate
      | ok default => rw [hstock] at hcreate; cases hcreate; rfl
  rw [get?, hdb, Table.find?_map]
  cases user.find? code <;> rfl

/-- A database that is created with a set of engine commands has this set. -/
theorem default_of_create {version : EngineVersion} {user default : CommandSet} {db : Database}
    (hcreate : create version user (some default) = .ok db) : db.default = default := by
  cases hcreate
  rfl

/-- The calls that a project makes override each other. After any calls a code means what the last
call that was not refused and has the code in its data says of it, else what the commands say that
the database was made with, the project's before the engine's. The engine's commands are the same
after each call. A call that is refused, whether at its first entry or behind good ones, leaves the
database as it was: what follows goes as if the call had not been made. -/
theorem override_history {version : EngineVersion} {user : CommandSet}
    {default? : Option CommandSet} {db : Database} (hcreate : create version user default? = .ok db)
    (rs : List Registration) :
    (∀ code, (db.registerAll rs).get? code =
      (rs.reverse.findSome? (·.find? code)).or ((user.find? code).or (db.default.find? code))) ∧
    (∀ r ∈ rs, ∀ code d,
      r.find? code = some d ↔ (∃ set, r.set? = some set) ∧ r.Describes code d) ∧
    ((∀ default, default? = some default → db.default = default) ∧
      ∀ n, (db.registerAll (rs.take n)).default = db.default) ∧
    ∀ before r after, rs = before ++ r :: after → r.set? = none →
      db.registerAll (before ++ [r]) = db.registerAll before ∧
        db.registerAll rs = db.registerAll (before ++ after) := by
  refine ⟨fun code => ?_, fun r _ code d => Registration.find?_eq_some_iff_describes,
    ⟨?_, fun n => default_registerAll db (rs.take n)⟩, ?_⟩
  · rw [get?_registerAll, get?_of_create hcreate]
  · rintro default rfl
    exact default_of_create hcreate
  · rintro before r after rfl hrefused
    have hcall : (db.registerAll before).register r = db.registerAll before :=
      register_of_none hrefused
    constructor
    · rw [registerAll_append]
      exact hcall
    · rw [registerAll_append, registerAll_append]
      exact congrArg (registerAll · after) hcall

/-- Three calls for the codes 5 and 6. The second one is refused at its second entry. -/
def historySample : List Registration :=
  let say (name : String) : Value := .record [("name", .str name), ("kind", .tagged "Blank" [])]
  [⟨.dict [(.str "5", say "A"), (.int 6, say "B")], "a"⟩,
    ⟨.dict [(.int 6, say "C"), (.str "x", say "D")], "b"⟩,
    ⟨.dict [(.float (.ofInt 5), say "E")], "c"⟩]

/-- A database with two sets of commands, and the three calls. Each code has its name from the last
call for it that is not refused; where there is none, from the project's commands and then from the
engine's. -/
theorem override_history_sample :
    let user : CommandSet := ⟨[(6, ⟨.str "F", .mark⟩), (7, ⟨.str "G", .mark⟩)]⟩
    let default : CommandSet := ⟨[(7, ⟨.str "H", .mark⟩), (8, ⟨.str "I", .mark⟩)]⟩
    let db : Database := ⟨.ace, user.map some, default⟩
    (create .ace user (some default) = .ok db ∧ (historySample[1]).set? = none) ∧
      ([5, 6, 7, 8, 9].map fun code => ((db.registerAll historySample).get? code).map (·.name)) =
        [some (.str "E"), some (.str "B"), some (.str "G"), some (.str "I"), none] ∧
      (db.registerAll historySample).default = default ∧
      db.registerAll historySample = db.registerAll [historySample[0], historySample[2]] := by
  intro user default db
  have hcreate : create .ace user (some default) = .ok db := rfl
  have hrefused : (historySample[1]).set? = none := rfl
  obtain ⟨hget, -, ⟨-, hdefault⟩, hleft⟩ := override_history hcreate historySample
  refine ⟨⟨hcreate, hrefused⟩, ?_, hdefault 3, ?_⟩
  · simp only [List.map_cons, List.map_nil, hget]
    rfl
  · exact (hleft [historySample[0]] _ [historySample[2]] rfl hrefused).2

end Database

end PageOutline
