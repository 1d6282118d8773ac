import PageOutline.Stock

/-!
# Databases

A database resolves command codes: a project's own commands come first and the commands of the
engine after them. An entry of the project may be vacant; a vacant entry hides nothing from `get?`
but is what `stored?` finds.
-/

namespace PageOutline

/-- Generations of the engine. -/
inductive EngineVersion where
  | xp
  | vx
  | ace
deriving DecidableEq

/-- The name of an engine. -/
def EngineVersion.name : EngineVersion → String
  | .xp => "XP"
  | .vx => "VX"
  | .ace => "Ace"

/-- The failure of asking for the commands of an engine that has no table here. -/
structure StockUnavailable where
  version : EngineVersion

/-- The message for an engine given by name. -/
def StockUnavailable.messageFor (version : String) : String :=
  "No default command descriptors are bundled for " ++ version

/-- The stock commands of an engine. -/
def EngineVersion.stock : EngineVersion → Except StockUnavailable CommandSet
  | .xp => .ok Stock.xp
  | v => .error ⟨v⟩

/-- The commands of a project and those of its engine. -/
structure Database where
  version : EngineVersion
  user : Table (Option Descriptor)
  default : CommandSet

namespace Database

/-- A database of an engine's stock commands, or of the given commands in their place. -/
def create (version : EngineVersion) (user : CommandSet) (default? : Option CommandSet) :
    Except StockUnavailable Database :=
  match default? with
  | some default => .ok ⟨version, user.map some, default⟩
  | none => version.stock.map fun default => ⟨version, user.map some, default⟩

/-- What a code means. -/
def get? (db : Database) (code : Code) : Option Descriptor :=
  match db.user.find? code with
  | some (some d) => some d
  | _ => db.default.find? code

/-- The entry that an edit of a code changes. -/
def stored? (db : Database) (code : Code) : Option Descriptor :=
  match db.user.find? code with
  | some entry => entry
  | none => db.default.find? code

/-- Replaces the entry that `stored?` finds. -/
def store (db : Database) (code : Code) (d : Descriptor) : Database :=
  if db.user.contains code then { db with user := db.user.insert code (some d) }
  else { db with default := db.default.insert code d }

/-- Adds project commands read from data. Nothing changes when the data is refused. -/
def addUserCommands (db : Database) (data : Value) (source : String) :
    Except LoadError Database :=
  (CommandSet.load data source).map fun set => { db with user := db.user.merge (set.map some) }

/-- All entries: the project's and then the engine's. -/
def entries (db : Database) : List (Code × Option Descriptor) :=
  db.user.entries ++ db.default.entries.map fun (code, d) => (code, some d)

/-- Whether a code has an entry, be it a vacant one. -/
def contains (db : Database) (code : Code) : Bool :=
  db.user.contains code || db.default.contains code

/-- The number of entries; a code in both sets counts twice. -/
def size (db : Database) : Nat := db.default.size + db.user.size

/-- The number of codes with an entry. -/
def distinctSize (db : Database) : Nat :=
  db.default.size + (db.user.keys.filter fun code => !db.default.contains code).length

/-- Whether there is no entry at all. -/
def isEmpty (db : Database) : Bool := db.size == 0

/-- Why a name cannot be lengthened: there is no descriptor, or its name is no text. -/
inductive RenameFailure where
  | vacant
  | notText

/-- A name with a text added to its end. A list takes the characters of the text in. -/
def lengthened (name : Value) (suffix : String) : Except RenameFailure Value :=
  match name with
  | .str s => .ok (.str (s ++ suffix))
  | .list xs => .ok (.list (xs ++ suffix.toList.map fun c => .str (String.singleton c)))
  | _ => .error .notText

/-- Adds a text to the names of entries in order, up to the first that refuses it. -/
def renameEntries (suffix : String) :
    List (Code × Option Descriptor) → List (Code × Option Descriptor) × Option RenameFailure
  | [] => ([], none)
  | (code, none) :: rest => ((code, none) :: rest, some .vacant)
  | (code, some d) :: rest =>
    match lengthened d.name suffix with
    | .error e => ((code, some d) :: rest, some e)
    | .ok name =>
      let (renamed, failure?) := renameEntries suffix rest
      ((code, some { d with name }) :: renamed, failure?)

/-- Adds a text to every name, the project's entries first. What was renamed before a failure stays
so. -/
def renameAll (db : Database) (suffix : String) : Database × Option RenameFailure :=
  match renameEntries suffix db.user.entries with
  | (user, some e) => ({ db with user := ⟨user⟩ }, some e)
  | (user, none) =>
    let (default, failure?) := renameEntries suffix (db.default.map some).entries
    let default := default.filterMap fun (code, d?) => d?.map (code, ·)
    ({ db with user := ⟨user⟩, default := ⟨default⟩ }, failure?)

/-- A change of one part of a descriptor, made without checking it. -/
inductive Edit where
  | name (v : Value)
  | continuation (code : CodeSlot)
  | terminator (code : CodeSlot)
  | firstBranch (code : CodeSlot)
  | kind (kind : CommandKind)

/-- Why a part cannot be changed: the kind has no such field, no such part, or no arm. -/
inductive EditFailure where
  | noField
  | noPart
  | noBranch

/-- Applies an edit to a kind. -/
def Edit.onKind : Edit → CommandKind → Except EditFailure CommandKind
  | .continuation code, .text _ => .ok (.text code)
  | .continuation code, .route _ => .ok (.route code)
  | .continuation _, _ => .error .noField
  | .terminator code, .scope k =>
    .ok (.scope { k with terminator := { k.terminator with code } })
  | .firstBranch code, .scope k =>
    match k.branches with
    | b :: bs => .ok (.scope { k with branches := { b with code } :: bs })
    | [] => .error .noBranch
  | .terminator _, _ => .error .noPart
  | .firstBranch _, _ => .error .noPart
  | .kind k, _ => .ok k
  | .name _, k => .ok k

/-- Applies an edit to a descriptor. -/
def Edit.apply (e : Edit) (d : Descriptor) : Except EditFailure Descriptor :=
  match e with
  | .name n => .ok { d with name := n }
  | e => (e.onKind d.kind).map fun k => { d with kind := k }

end Database

end PageOutline
