import PageOutline.CommandSet.File
import PageOutline.Diagnostic
import PageOutline.Settings.Basic

/-!
# Settings in files

Settings may be kept in a YAML file. There a relative path of the project's commands starts from the
folder of that file. `Settings.database` opens what the settings describe.
-/

namespace PageOutline

/-- Why a file gives no settings: it cannot be opened, its text or a scalar in it has no value,
the project's commands are named by something that is no path, or the settings are refused. -/
inductive SettingsFileError where
  | file (e : FileError)
  | text (e : YamlError)
  | notPath
  | data (e : SettingsError)

namespace Settings

/-- The entries of a settings file with the path of the project's commands seen from where `file`
is. -/
def resolveCommands (file : Path) (es : List (Value × Value)) :
    Except SettingsFileError (List (Value × Value)) :=
  match Value.lookup? es "user_commands" with
  | none => .ok es
  | some .null => .ok es
  | some (.str s) =>
    let path := file.parent.join (.ofText s)
    .ok (Value.setEntry (.str "user_commands") (.str path.text) es)
  | some (.points ps) =>
    if ps.head? = some '/'.toNat then .ok es
    else
      let path := file.parent.join (.ofText (String.ofList (Text.charsOfPoints ps)))
      .ok (Value.setEntry (.str "user_commands") (.str path.text) es)
  | some _ => .error .notPath

/-- Reads the settings that a file holds. A file whose value counts as false changes nothing. -/
def loadFile (folder : Folder) (path : Path) : Except SettingsFileError Settings :=
  match folder.read path with
  | .error e => .error (.file e)
  | .ok bytes =>
    match (Yaml.load (.ofBytes bytes)).map Value.reveal with
    | .error .malformed => .error (.data ⟨path.text, .badYaml⟩)
    | .error e => .error (.text e)
    | .ok (.dict es) =>
      match resolveCommands path es with
      | .error e => .error e
      | .ok es => (Settings.load es path.text).mapError .data
    | .ok v => if v.isTruthy then .error (.data ⟨path.text, .notMapping⟩) else .ok default

/-- Why there is no database for some settings. -/
inductive DatabaseFailure where
  | stock (e : StockUnavailable)
  | commands (e : CommandFileError)

/-- The database that the settings describe, with what was logged while it was made. -/
def database (s : Settings) (folder : Folder) :
    Except DatabaseFailure (Database × Array LogRecord) :=
  match Database.create s.engine .empty none with
  | .error e => .error (.stock e)
  | .ok db =>
    match s.userCommands? with
    | none => .ok (db, #[])
    | some path =>
      match CommandSet.loadFile folder path with
      | .error e => .error (.commands e)
      | .ok set =>
        let db := { db with user := db.user.merge (set.map some) }
        .ok (db, #[.userCommandsLoaded db.user.size path.text])

end Settings

end PageOutline
