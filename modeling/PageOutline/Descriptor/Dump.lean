import PageOutline.Descriptor.Basic

/-!
# Descriptors as data

Every descriptor written out as a dictionary with all fields, defaults included. Reading the
dictionary against the schema gives the descriptor back.
-/

namespace PageOutline

/-- A dictionary with text keys. -/
def Value.record (fields : List (String × Value)) : Value :=
  .dict (fields.map fun (name, v) => (.str name, v))

/-- A record of a union: its tag comes first. -/
def Value.tagged (tag : String) (fields : List (String × Value)) : Value :=
  .record (("type", .str tag) :: fields)

mutual

/-- Writes the kind of a parameter. -/
def ParameterKind.dump : ParameterKind → Value
  | .switch => .tagged "Switch" []
  | .variable => .tagged "Variable" []
  | .choice values => .tagged "Enum" [("values", .list (values.map .str))]
  | .selector options => .tagged "Selector" [("options", .list (dumpLayouts options))]
  | .selfSwitch => .tagged "SelfSwitch" []
  | .intBool => .tagged "IntBool" []
  | .bool => .tagged "Bool" []
  | .int => .tagged "Int" []

/-- Writes a part of a layout. -/
def Parameter.dump : Parameter → Value
  | .field index name kind =>
    .tagged "Parameter" [("index", .int index), ("name", .str name), ("kind", kind.dump)]
  | .label text => .tagged "Label" [("text", .str text)]

/-- The parts of one layout. -/
def dumpLayout : List Parameter → List Value
  | [] => []
  | p :: ps => p.dump :: dumpLayout ps

/-- The layouts that a selector chooses from. -/
def dumpLayouts : List (List Parameter) → List Value
  | [] => []
  | l :: ls => .list (dumpLayout l) :: dumpLayouts ls

end

/-- Writes a condition. -/
def Condition.dump (c : Condition) : Value :=
  match c.kind with
  | .isTrue => .record [("parameter", .int c.parameter), ("kind", .str "IsTrue")]

/-- Writes a terminator. -/
def Terminator.dump (t : Terminator) : Value :=
  .record [("code", t.code), ("name", .str t.name)]

/-- Writes an arm. -/
def Branch.dump (b : Branch) : Value :=
  .record [("name", .str b.name), ("code", b.code), ("condition", b.condition.dump),
    ("duplicate_parameter", match b.duplicateParameter? with
      | some i => .int i
      | none => .null)]

/-- Writes the kind of a command. -/
def CommandKind.dump : CommandKind → Value
  | .scope k => .tagged "Branch" [("parameters", .list (dumpLayout k.parameters)),
      ("branches", .list (k.branches.map Branch.dump)), ("terminator", k.terminator.dump),
      ("command_contains_branch", .bool k.containsCommands)]
  | .text continuation => .tagged "Multi" [("continuation", continuation)]
  | .plain parameters => .tagged "Regular" [("parameters", .list (dumpLayout parameters))]
  | .route continuation => .tagged "MoveRoute" [("continuation", continuation)]
  | .mark => .tagged "Blank" []

/-- Writes a descriptor, all fields of it. -/
def Descriptor.dump (d : Descriptor) : Value :=
  .record [("name", d.name), ("kind", d.kind.dump)]

end PageOutline
