import PageOutline.Database
import PageOutline.Folder

/-!
# Settings

Which engine a project targets, how delimiters are recognised, where the project's own commands are
and whether unknown codes are logged. Every setting has a default, and data may set any of them;
keys that are no settings are passed over.
-/

namespace PageOutline

open Schema

/-- The settings of a project. -/
structure Settings where
  engine : EngineVersion
  matching : Matching
  userCommands? : Option Path
  logsUnknown : Bool
deriving DecidableEq

/-- Why settings are refused. -/
inductive SettingsFailure where
  | invalid (faults : List Fault)
  | notMapping
  | badYaml

namespace SettingsFailure

/-- The reason in words; faults of values and of YAML text are reported in their own form. -/
def reason? : SettingsFailure → Option String
  | .invalid _ => none
  | .notMapping => some "expected a mapping at the top level"
  | .badYaml => none

/-- The whole message for settings from some source. -/
def message (source reason : String) : String :=
  "Invalid parser configuration in " ++ source ++ ": " ++ reason

/-- The whole message of a failure that has a reason in words. -/
def messageFor? (source : String) (f : SettingsFailure) : Option String :=
  f.reason?.map (message source)

end SettingsFailure

/-- A refusal of settings from some source. -/
structure SettingsError where
  source : String
  failure : SettingsFailure

/-- Reads a path. -/
def readPath : Reader Path
  | .str s => .ok (.ofText s)
  | _ => .fault .pathType

namespace Settings

/-- The stock commands of the oldest engine, delimiters by code, no commands of the project's own,
and unknown codes logged. -/
def default : Settings := ⟨.xp, .code, none, true⟩

/-- Reads the settings that a dictionary's entries give. -/
def ofEntries (es : Entries) : Checked Settings :=
  Checked.map2 (fun (engine, matching) (userCommands?, logsUnknown) =>
      ⟨engine, matching, userCommands?, logsUnknown⟩)
    ((es.optional "engine_version" default.engine
        (readChoice [("XP", .xp), ("VX", .vx), ("Ace", .ace)])).both
      (es.optional "branch_matching" default.matching
        (readChoice [("code", .code), ("parameter", .parameter)])))
    ((es.optional "user_commands" default.userCommands? (readOptional readPath)).both
      (es.optional "log_unknown_codes" default.logsUnknown readFlag))

/-- The settings that a dictionary from some source gives. -/
def load (es : Entries) (source : String) : Except SettingsError Settings :=
  match ofEntries es with
  | .ok s => .ok s
  | .faulty faults => .error ⟨source, .invalid faults⟩

end Settings

end PageOutline
