import PageOutline.Table

/-!
# Diagnostics

Issues that do not stop a page from being parsed: codes without a descriptor and continuation lines
that are no text. A collector keeps them in order and counts the unknown codes.
-/

namespace PageOutline

/-- The kinds of issues. -/
inductive IssueKind where
  | unknownCode
  | malformedText
deriving DecidableEq

/-- The name of a kind of issues in texts. -/
def IssueKind.text : IssueKind → String
  | .unknownCode => "unknown_command_code"
  | .malformedText => "malformed_multi_payload"

/-- One issue: the code and the index within the page of the command concerned. -/
structure Diagnostic where
  kind : IssueKind
  code : Code
  position : Int
  message : String
deriving DecidableEq

/-- The issue as one line. -/
def Diagnostic.text (d : Diagnostic) : String :=
  "[" ++ d.kind.text ++ s!"] command {d.code} at position {d.position}: " ++ d.message

/-- A collector of issues. -/
structure Diagnostics where
  entries : Array Diagnostic
  /-- How often each unknown code was met, in the order of first meetings. -/
  unknownCodes : Table Nat
  /-- Whether unknown codes are logged as well. -/
  logsUnknown : Bool

namespace Diagnostics

/-- A collector without issues. -/
def empty (logsUnknown : Bool) : Diagnostics := ⟨#[], .empty, logsUnknown⟩

/-- How often a code was met as unknown. -/
def unknownCount (ds : Diagnostics) (code : Code) : Nat := (ds.unknownCodes.find? code).getD 0

/-- Keeps an issue. -/
def add (ds : Diagnostics) (d : Diagnostic) : Diagnostics :=
  let unknownCodes := match d.kind with
    | .unknownCode => ds.unknownCodes.insert d.code (ds.unknownCount d.code + 1)
    | .malformedText => ds.unknownCodes
  { ds with entries := ds.entries.push d, unknownCodes }

/-- Whether an issue is logged. -/
def isLogged (ds : Diagnostics) (d : Diagnostic) : Bool :=
  d.kind != .unknownCode || ds.logsUnknown

/-- The issues of one kind. -/
def ofKind (ds : Diagnostics) (kind : IssueKind) : List Diagnostic :=
  ds.entries.toList.filter (·.kind == kind)

/-- The number of issues of one kind. -/
def count (ds : Diagnostics) (kind : IssueKind) : Nat := (ds.ofKind kind).length

/-- An issue is kept after those that there are, whatever its kind. -/
@[simp] theorem entries_add (ds : Diagnostics) (d : Diagnostic) :
    (ds.add d).entries = ds.entries.push d := rfl

end Diagnostics

/-- What the library reports to a log while it works. -/
inductive LogRecord where
  | issue (d : Diagnostic)
  | pageParsed (commands : Int) (nodes diagnostics : Nat)
  | userCommandsLoaded (count : Nat) (source : String)
deriving DecidableEq

/-- A record of the log as one line. -/
def LogRecord.text : LogRecord → String
  | .issue d => d.text
  | .pageParsed commands nodes diagnostics =>
    s!"Parsed {commands} commands into {nodes} nodes ({diagnostics} diagnostics)"
  | .userCommandsLoaded count source => s!"Loaded {count} user command descriptors from " ++ source

end PageOutline
