import PageOutline.Value.Basic

/-!
# Commands

A command is the unit stored in an event page: a code that selects what the command does, its
parameters in storage order, and the indent level that the editor recorded. Code 0 is padding; the
command with code 0 and nothing else, the sentinel, anchors the root of every tree.
-/

namespace PageOutline

/-- Numbers that select what a command does. -/
abbrev Code := Int

/-- A place for a code in a description of commands. Reading puts an integer there; an edit may put
any value, and then the place stands for the code that the value equals, if there is one. -/
abbrev CodeSlot := Value

/-- Whether a place for a code stands for the given one. -/
def CodeSlot.holds (slot : CodeSlot) (code : Code) : Bool := slot.equalInt? == some code

/-- Codes are stored in sixteen bits. -/
def maxCode : Code := 65535

/-- The codes that a command can have. -/
def Code.InRange (code : Code) : Prop := 0 ≤ code ∧ code ≤ maxCode

instance (code : Code) : Decidable code.InRange := by
  unfold Code.InRange
  infer_instance

/-- One entry of an event page: a code, parameters, and the indentation that the editor recorded. -/
structure Command where
  code : Code
  parameters : List Value
  indent : Value
  inRange : code.InRange

namespace Command

/-- The code of padding. -/
def paddingCode : Code := 0

/-- The command that anchors the root of every tree. -/
def sentinel : Command := ⟨0, [], .int 0, by decide⟩

instance : Inhabited Command := ⟨sentinel⟩

/-- Whether the command is padding. -/
def isSentinel (c : Command) : Bool := c.code == paddingCode

/-- Why no command can be made from given data. -/
inductive Refusal where
  | notIterable
  | codeKind (kind : String)
  | codeRange (code : Int)
  | noParameter (index : Int)

/-- The wording of a refused code; the other refusals have none. -/
def Refusal.message? : Refusal → Option String
  | .codeKind kind => some s!"Command code must be an int, got {kind}"
  | .codeRange code => some s!"Command code {code} is outside 0..{maxCode}"
  | .notIterable => none
  | .noParameter _ => none

/-- The items that a value holds when it is used as a sequence of parameters: a text gives its
characters and a dictionary its keys. -/
def items? : Value → Option (List Value)
  | .str s => some (s.toList.map fun c => .str (String.singleton c))
  | .points ps => some (ps.map fun n => .ofPoints [n])
  | .bytes b => some (b.map fun x => .int x.toNat)
  | .list xs => some xs
  | .tuple xs => some xs
  | .dict es => some (es.map (·.1))
  | .set xs => some xs
  | _ => none

/-- Makes a command from raw data. The parameters are looked at before the code. -/
def ofValues (code parameters indent : Value) : Except Refusal Command :=
  match items? parameters with
  | none => .error .notIterable
  | some ps =>
    match code with
    | .int i => if h : Code.InRange i then .ok ⟨i, ps, indent, h⟩ else .error (.codeRange i)
    | v => .error (.codeKind v.kindName)

/-- The parameter at an index, or nothing when it is missing. -/
def parameter? (c : Command) (index : Int) : Option Value :=
  if 0 ≤ index then c.parameters[index.toNat]? else none

/-- The parameter at an index, or the given value when it is missing. -/
def parameter (c : Command) (index : Int) (default : Value) : Value :=
  (c.parameter? index).getD default

/-- The parameter at an index that may be any value. A float within the range is no index, and one
beyond it gives the default. -/
def parameterAt? (c : Command) (index default : Value) : Option Value :=
  match index with
  | .float x =>
    match x.toRatio? with
    | some (n, d) => if 0 ≤ n ∧ n < c.parameters.length * d then none else some default
    | none => some default
  | v => v.asInt?.map fun i => c.parameter i default

/-- The same command with other parameters. -/
def withParameters (c : Command) (parameters : List Value) : Command :=
  { c with parameters }

/-- The same command with one parameter replaced. A negative index counts from the end. -/
def withParameter (c : Command) (index : Int) (value : Value) : Except Refusal Command :=
  let place := if index < 0 then index + c.parameters.length else index
  if 0 ≤ place ∧ place < c.parameters.length then
    .ok { c with parameters := c.parameters.set place.toNat value }
  else .error (.noParameter index)

/-- Equality by meaning of code, parameters and indent. -/
def sameAs (c d : Command) : Bool :=
  c.code == d.code && Value.sameItems c.parameters d.parameters &&
    Value.sameValue c.indent d.indent

/-- An integer in a place for a code stands for that code alone. -/
@[simp] theorem holds_int (i code : Int) :
    CodeSlot.holds (.int i) code = (i == code) := by
  simp [CodeSlot.holds, Value.equalInt?, Value.asInt?]

/-- Other parameters leave the code of a command. -/
@[simp] theorem code_withParameters (c : Command) (ps : List Value) :
    (c.withParameters ps).code = c.code := rfl

/-- The first parameter can be replaced exactly when there is one. -/
theorem withParameter_zero (c : Command) (p : Value) (ps : List Value) (v : Value)
    (h : c.parameters = p :: ps) : c.withParameter 0 v = .ok (c.withParameters (v :: ps)) := by
  simp [withParameter, withParameters, h]

end Command

end PageOutline
