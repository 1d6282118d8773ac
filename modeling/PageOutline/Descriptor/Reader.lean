import PageOutline.Descriptor.Basic
import PageOutline.Schema.Record

/-!
# Reading descriptors

The schema of descriptors. Layouts nest through selectors to any depth; a value of size `n` is read
by the reader of level `n`, whose parts go to the level below. A position that lies within itself is
refused where it is met again.
-/

namespace PageOutline

open Schema

/-- Reads a record that has only its tag. -/
def readBare {α : Type} (tag : String) (a : α) : Reader α :=
  record ["type"] fun es => (es.tag tag).map fun _ => a

/-- Reads the names of a choice. -/
def ParameterKind.readChoice : Reader ParameterKind :=
  record ["type", "values"] fun es =>
    Checked.map2 (fun _ values => .choice values) (es.tag "Enum")
      (es.required "values" (readList readText))

/-- Reads the layouts of a selector, their parts by the given reader. -/
def ParameterKind.readSelector (part : Reader Parameter) : Reader ParameterKind :=
  record ["type", "options"] fun es =>
    Checked.map2 (fun _ options => .selector options) (es.tag "Selector")
      (es.required "options" (readList (readList part)))

/-- Reads a kind of parameter, the parts of its layouts by the given reader. -/
def ParameterKind.readWith (part : Reader Parameter) : Reader ParameterKind :=
  tagged [("Switch", readBare "Switch" .switch), ("Variable", readBare "Variable" .variable),
    ("Enum", readChoice), ("Selector", readSelector part),
    ("SelfSwitch", readBare "SelfSwitch" .selfSwitch), ("IntBool", readBare "IntBool" .intBool),
    ("Bool", readBare "Bool" .bool), ("Int", readBare "Int" .int)]

/-- Reads an editable position, the parts of its layouts by the given reader. -/
def Parameter.readField (part : Reader Parameter) : Reader Parameter :=
  record ["type", "index", "name", "kind"] fun es =>
    Checked.map2 (fun _ (index, name, kind) => .field index name kind) (es.tag "Parameter")
      ((es.required "index" readNat).both
        ((es.required "name" readText).both
          (es.required "kind" (ParameterKind.readWith part))))

/-- Reads a text between positions. -/
def Parameter.readLabel : Reader Parameter :=
  record ["type", "text"] fun es =>
    Checked.map2 (fun _ text => .label text) (es.tag "Label") (es.required "text" readText)

/-- Reads a part of a layout, an editable position by the given reader. -/
def Parameter.readWith (position : Reader Parameter) : Reader Parameter :=
  tagged [("Parameter", position), ("Label", readLabel)]

/-- The reader for values up to a size, within the positions that have the given numbers. -/
def Parameter.readAt : Nat → List Nat → Reader Parameter
  | 0, _ => fun _ => .fault .recursionLoop
  | n + 1, outer => fun v =>
    let readPosition : Reader Parameter :=
      if v.knotId?.any outer.contains then fun _ => .fault .recursionLoop
      else Parameter.readField (Parameter.readAt n (v.knotId?.toList ++ outer))
    Parameter.readWith readPosition v

/-- Reads a part of a layout. -/
def Parameter.read : Reader Parameter := fun v => Parameter.readAt v.size [] v

/-- Reads a condition. -/
def Condition.read : Reader Condition :=
  record ["parameter", "kind"] fun es =>
    Checked.map2 Condition.mk (es.required "parameter" readNat)
      (es.optional "kind" .isTrue (readChoice [("IsTrue", .isTrue)]))

/-- Reads a code into its place. -/
def readSlot : Reader CodeSlot := fun v => (readCode maxCode v).map .int

/-- Reads a terminator. -/
def Terminator.read : Reader Terminator :=
  record ["code", "name"] fun es =>
    Checked.map2 Terminator.mk (es.required "code" readSlot) (es.required "name" readText)

/-- Reads an arm. -/
def Branch.read : Reader Branch :=
  record ["name", "code", "condition", "duplicate_parameter"] fun es =>
    Checked.map2 (fun (name, code) (condition, duplicate) => ⟨name, code, condition, duplicate⟩)
      ((es.required "name" readText).both (es.required "code" readSlot))
      ((es.required "condition" Condition.read).both
        (es.optional "duplicate_parameter" none (readOptional readNat)))

/-- Reads what a command that opens a scope has. -/
def ScopeKind.read : Reader ScopeKind :=
  record ["type", "parameters", "branches", "terminator", "command_contains_branch"] fun es =>
    Checked.map2
      (fun _ ((parameters, branches), (terminator, contains)) =>
        ⟨parameters, branches, terminator, contains⟩)
      (es.tag "Branch")
      (((es.optional "parameters" [] (readList Parameter.read)).both
          (es.optional "branches" [] (readList Branch.read))).both
        ((es.required "terminator" Terminator.read).both
          (es.optional "command_contains_branch" true readFlag)))

/-- Reads a kind that has only a continuation code. -/
def readContinuation (tag : String) (make : CodeSlot → CommandKind) : Reader CommandKind :=
  record ["type", "continuation"] fun es =>
    Checked.map2 (fun _ code => make code) (es.tag tag)
      (es.required "continuation" readSlot)

namespace CommandKind

/-- Reads the kind of a command that opens a scope. -/
def readScope : Reader CommandKind := fun v => (ScopeKind.read v).map .scope

/-- Reads the kind of a command that is followed by lines. -/
def readText : Reader CommandKind := readContinuation "Multi" .text

/-- Reads the kind of a command that has parameters alone. -/
def readPlain : Reader CommandKind :=
  record ["type", "parameters"] fun es =>
    Checked.map2 (fun _ parameters => .plain parameters) (es.tag "Regular")
      (es.optional "parameters" [] (readList Parameter.read))

/-- Reads the kind of a command that is followed by entries. -/
def readRoute : Reader CommandKind := readContinuation "MoveRoute" .route

/-- Reads the kind of a command that has nothing. -/
def readMark : Reader CommandKind := readBare "Blank" .mark

/-- Reads the kind of a command. -/
def read : Reader CommandKind :=
  tagged [("Branch", readScope), ("Multi", readText), ("Regular", readPlain),
    ("MoveRoute", readRoute), ("Blank", readMark)]

end CommandKind

/-- Reads a descriptor. -/
def Descriptor.read : Reader Descriptor :=
  record ["name", "kind"] fun es =>
    Checked.map2 (fun name kind => ⟨.str name, kind⟩) (es.required "name" readText)
      (es.required "kind" CommandKind.read)

end PageOutline
