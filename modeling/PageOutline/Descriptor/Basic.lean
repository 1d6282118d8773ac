import PageOutline.Command

/-!
# Descriptors

A descriptor says what a command code means: it opens a scope that lasts up to a terminator, its
text goes on over following commands, it drags display entries behind it, or it stands alone. The
layout of parameters is kept for editors; it has no part in the nesting of a page.
-/

namespace PageOutline

mutual

/-- How an editor presents one parameter. -/
inductive ParameterKind where
  | switch
  | variable
  | choice (values : List String)
  | selector (options : List (List Parameter))
  | selfSwitch
  | intBool
  | bool
  | int

/-- A part of a parameter layout: an editable position or a text between positions. -/
inductive Parameter where
  | field (index : Nat) (name : String) (kind : ParameterKind)
  | label (text : String)

end

/-- How a condition reads its parameter. -/
inductive ConditionKind where
  | isTrue
deriving DecidableEq

/-- A condition on the opening command under which an arm is offered. -/
structure Condition where
  parameter : Nat
  kind : ConditionKind
deriving DecidableEq

/-- A missing parameter counts as false. -/
def Condition.evaluate (c : Condition) (command : Command) : Bool :=
  match c.kind with
  | .isTrue => (command.parameter c.parameter (.bool false)).isTruthy

/-- The command that closes a scope. -/
structure Terminator where
  code : CodeSlot
  name : String

/-- A delimiter that starts a new arm of a scope. Several arms may share a code and differ by one
parameter, which `duplicateParameter?` names. -/
structure Branch where
  name : String
  code : CodeSlot
  condition : Condition
  duplicateParameter? : Option Nat

/-- How delimiters are recognised: by their code alone, or also by the presence of the parameter
that tells arms of one code apart. -/
inductive Matching where
  | code
  | parameter
deriving DecidableEq

namespace Branch

/-- Whether a command starts an arm of this kind. The parameter's value does not matter. -/
def accepts (b : Branch) (matching : Matching) (command : Command) : Bool :=
  b.code.holds command.code &&
    (matching == .code || b.duplicateParameter?.all (· < command.parameters.length))

/-- What tells the arm that a command starts from the other arms of its code. -/
def armKey (b : Branch) (command : Command) : List Value :=
  match b.duplicateParameter? with
  | none => [b.code]
  | some i => [b.code, command.parameter i .null]

end Branch

/-- A command that opens a scope. -/
structure ScopeKind where
  parameters : List Parameter
  branches : List Branch
  terminator : Terminator
  /-- Whether the first arm holds commands before any delimiter. -/
  containsCommands : Bool

/-- The arm that a command starts, if it is a delimiter of the scope. -/
def ScopeKind.findBranch? (k : ScopeKind) (matching : Matching) (command : Command) :
    Option Branch :=
  k.branches.find? (·.accepts matching command)

/-- What a command does to the commands after it. -/
inductive CommandKind where
  | scope (kind : ScopeKind)
  | text (continuation : CodeSlot)
  | plain (parameters : List Parameter)
  | route (continuation : CodeSlot)
  | mark

/-- What is known about the commands with one code. Reading gives it a text as its name; an edit may
give it any value. -/
structure Descriptor where
  name : Value
  kind : CommandKind

instance : Inhabited Descriptor := ⟨⟨.str "", .mark⟩⟩

end PageOutline
