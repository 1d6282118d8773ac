import PageOutline.CommandSet
import PageOutline.Folder
import PageOutline.Yaml.Load

/-!
# Command sets in files

A command set may be kept in a YAML file. The path of the file is the source that errors name.
-/

namespace PageOutline

/-- Why a file gives no command set: it cannot be opened, its text or a scalar in it has
no value, or its data is refused. -/
inductive CommandFileError where
  | file (e : FileError)
  | text (e : YamlError)
  | data (e : LoadError)

/-- Reads the command set that a file holds. -/
def CommandSet.loadFile (folder : Folder) (path : Path) : Except CommandFileError CommandSet :=
  match folder.read path with
  | .error e => .error (.file e)
  | .ok bytes =>
    match Yaml.load (.ofBytes bytes) with
    | .error .malformed => .error (.data (.rejected path.text .badYaml))
    | .error e => .error (.text e)
    | .ok v => (CommandSet.load v path.text).mapError .data

end PageOutline
