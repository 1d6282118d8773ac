import PageOutline.Page.Parser
import PageOutline.Settings.File

/-!
# Outliners

An outliner parses pages with one database and one choice of settings. Each page has a collector of
its own.
-/

namespace PageOutline

/-- A database and the choices under which pages are parsed. -/
structure Outliner where
  database : Database
  matching : Matching
  logsUnknown : Bool

namespace Outliner

/-- The outliner of a database, with the settings that are given or else the default ones. -/
def create (database : Database) (settings? : Option Settings) : Outliner :=
  let settings := settings?.getD .default
  ⟨database, settings.matching, settings.logsUnknown⟩

/-- The outliner of the database that the settings describe, with what was logged while it was
made. -/
def ofSettings (settings : Settings) (folder : Folder) :
    Except Settings.DatabaseFailure (Outliner × Array LogRecord) :=
  (settings.database folder).map fun (db, log) => (create db (some settings), log)

/-- Parses one page. -/
def outline (o : Outliner) (log : Array LogRecord) (page : List Command) : PageResult :=
  parsePage o.database o.matching (.empty o.logsUnknown) log page

/-- Parses pages up to the first that fails. -/
def outlineAll (o : Outliner) (log : Array LogRecord) (pages : List (List Command)) :
    Except PageError (List (Tree × Diagnostics)) × Array LogRecord :=
  parsePagesApart o.database o.matching o.logsUnknown log pages

end Outliner

end PageOutline
