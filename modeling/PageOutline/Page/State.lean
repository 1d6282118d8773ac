import PageOutline.Cursor
import PageOutline.Tree
import PageOutline.Database
import PageOutline.Diagnostic

/-!
# The state of a parse

What a parse works on: the arena that receives nodes, the cursor over the page, the collector of
issues and the log. A failed parse leaves all four as they were when it failed.
-/

namespace PageOutline

/-- Why a page cannot be parsed. The last two are failures of a look-up and never of a page. -/
inductive PageError where
  /-- The page ends inside a scope: its opening code, the index of the opening command and the code
  of the terminator that is missing. -/
  | unterminated (opener : Code) (position : Int) (terminator : CodeSlot)
  /-- Scopes nest too deep; the index is that of the command reached. -/
  | nestingTooDeep (position : Int)
  | nodeNotFound (id : Value)
  | noParameter (index : Int)

namespace PageError

/-- The message for an unterminated scope. The parts are texts already. -/
def unterminatedMessage (opener position terminator : String) : String :=
  "Branch opened by command " ++ opener ++ " at position " ++ position ++
    " was never terminated (expected terminator " ++ terminator ++ ")"

/-- The message for scopes that nest too deeply. The index is a text already. -/
def nestingMessage (position : String) : String :=
  "Branch scopes nest too deeply to parse (reached command at position " ++ position ++ ")"

end PageError

/-- The message for an id that leads to no node. An id is any value with a text; that an integer
with too many digits has none is left aside. -/
def NodeNotFound.messageFor (id : String) : String :=
  "Node " ++ id ++ " does not exist in this arena"

/-- The message of an error. A missing parameter has none. -/
def PageError.message? : PageError → Option String
  | .unterminated opener position terminator =>
    some (unterminatedMessage (toString opener) (toString position) terminator.display)
  | .nestingTooDeep position => some (nestingMessage (toString position))
  | .nodeNotFound id => some (NodeNotFound.messageFor id.display)
  | .noParameter _ => none

/-- What a parse works on: the tree so far, the commands left, the issues and the log. -/
structure ParseState where
  arena : Arena
  cursor : Cursor
  diagnostics : Diagnostics
  log : Array LogRecord

namespace ParseState

/-- Moves past the next command. -/
def pull? (s : ParseState) : Option (Command × ParseState) :=
  s.cursor.next?.map fun (c, cursor) => (c, { s with cursor })

/-- Keeps an issue, and logs it unless the collector leaves its kind out. -/
def record (s : ParseState) (d : Diagnostic) : ParseState :=
  let logged := s.diagnostics.isLogged d
  { s with
    diagnostics := s.diagnostics.add d
    log := if logged then s.log.push (.issue d) else s.log }

/-- Makes a node for a command as the last child of `parent`. -/
def append (s : ParseState) (parent : Int) (c : Command) : Except PageError Nat × ParseState :=
  let ⟨arena, cursor, diagnostics, log⟩ := s
  match arena.append parent c with
  | (.ok id, arena) => (.ok id, ⟨arena, cursor, diagnostics, log⟩)
  | (.error e, arena) => (.error (.nodeNotFound e.id), ⟨arena, cursor, diagnostics, log⟩)

end ParseState

/-- The index of the parameter that holds the text of a command. -/
def textParameter : Int := 0

/-- The text of a command, as code points. -/
def Command.text? (c : Command) : Option (List Nat) :=
  (c.parameter textParameter .null).textPoints?

/-- What is said of a line that cannot be joined to a text. -/
def malformedLineMessage (line text : Value) (opener : Code) : String :=
  s!"cannot append {line.kindName} to {text.kindName} text of command {opener}, line dropped"

/-- The issue of a continuation line at an index that cannot be joined to the text of a command. -/
def malformedLine (opener : Command) (position : Int) (line : Command) : Diagnostic :=
  let text := opener.parameter textParameter .null
  let more := line.parameter textParameter .null
  ⟨.malformedText, line.code, position, malformedLineMessage more text opener.code⟩

/-- The issues of a run of continuation lines, the first of which has the given index: every line is
malformed whose text is no text, and all are when the opening command has none. -/
def malformedLines (opener : Command) : Int → List Command → List Diagnostic
  | _, [] => []
  | position, line :: rest =>
    let others := malformedLines opener (position + 1) rest
    if opener.text?.isSome && line.text?.isSome then others
    else malformedLine opener position line :: others

/-- The code point that ends a line. -/
def lineBreak : Nat := 10

/-- A command with the texts of a run of continuation lines joined to its own, one to a line. It
stays as it is when it has no text or no line has one. -/
def Command.joinLines (opener : Command) (lines : List Command) :
    Except Command.Refusal Command :=
  match opener.text?, lines.filterMap Command.text? with
  | some s, t :: ts =>
    opener.withParameter textParameter (.ofPoints ([lineBreak].intercalate (s :: t :: ts)))
  | _, _ => .ok opener

end PageOutline
