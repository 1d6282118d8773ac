/-!
# Faults

What can be wrong with data that is read against a schema. A fault names its kind and the path to
the place; all faults of one reading are kept, and reports list them in one order.
-/

namespace PageOutline.Schema

/-- One step of a path: a key or tag, or an index or numeric key. -/
inductive Step where
  | key (name : String)
  | number (n : Int)
deriving DecidableEq

/-- A step in texts. -/
def Step.text : Step → String
  | .key name => name
  | .number n => toString n

/-- What is wrong with a piece of data. -/
inductive FaultKind where
  | modelType
  | modelAttributesType
  | missing
  | extraForbidden
  | invalidKey
  | unionTagNotFound
  | unionTagInvalid
  | literalError
  | intType
  | intParsing
  | intFromFloat
  | intParsingSize
  | finiteNumber
  | greaterThanEqual
  | lessThanEqual
  | stringType
  | stringUnicode
  | boolType
  | boolParsing
  | listType
  | enumValue
  | pathType
  | recursionLoop
deriving DecidableEq

/-- The name of a kind of fault in reports. -/
def FaultKind.text : FaultKind → String
  | .modelType => "model_type"
  | .modelAttributesType => "model_attributes_type"
  | .missing => "missing"
  | .extraForbidden => "extra_forbidden"
  | .invalidKey => "invalid_key"
  | .unionTagNotFound => "union_tag_not_found"
  | .unionTagInvalid => "union_tag_invalid"
  | .literalError => "literal_error"
  | .intType => "int_type"
  | .intParsing => "int_parsing"
  | .intFromFloat => "int_from_float"
  | .intParsingSize => "int_parsing_size"
  | .finiteNumber => "finite_number"
  | .greaterThanEqual => "greater_than_equal"
  | .lessThanEqual => "less_than_equal"
  | .stringType => "string_type"
  | .stringUnicode => "string_unicode"
  | .boolType => "bool_type"
  | .boolParsing => "bool_parsing"
  | .listType => "list_type"
  | .enumValue => "enum"
  | .pathType => "path_type"
  | .recursionLoop => "recursion_loop"

/-- One fault and the path to its place. -/
structure Fault where
  path : List Step
  kind : FaultKind
deriving DecidableEq

namespace Fault

/-- The fault as seen from one level further out. -/
def under (step : Step) (f : Fault) : Fault := { f with path := step :: f.path }

/-- Reports are ordered by path and then by kind, both as text. -/
def sortKey (f : Fault) : String :=
  "/".intercalate (f.path.map Step.text) ++ " " ++ f.kind.text

/-- The faults of one reading in the order of reports. -/
def sorted (faults : List Fault) : List Fault :=
  faults.mergeSort fun f g => !(g.sortKey < f.sortKey)

end Fault

/-- The outcome of reading data: a value, or every fault that was found. -/
inductive Checked (α : Type) where
  | ok (value : α)
  | faulty (faults : List Fault)

namespace Checked

variable {α β γ : Type}

/-- The failure with one fault at the place itself. -/
def fault (kind : FaultKind) : Checked α := .faulty [⟨[], kind⟩]

/-- The faults of an outcome, none if it is a value. -/
def faults : Checked α → List Fault
  | .ok _ => []
  | .faulty fs => fs

/-- Makes another value of the value, if there is one. -/
def map (f : α → β) : Checked α → Checked β
  | .ok a => .ok (f a)
  | .faulty fs => .faulty fs

/-- Moves the outcome one level further out. -/
def under (step : Step) : Checked α → Checked α
  | .ok a => .ok a
  | .faulty fs => .faulty (fs.map (·.under step))

/-- Joins two outcomes and keeps the faults of both. -/
def both (x : Checked α) (y : Checked β) : Checked (α × β) :=
  match x, y with
  | .ok a, .ok b => .ok (a, b)
  | x, y => .faulty (x.faults ++ y.faults)

/-- Makes one value of two, and keeps the faults of both. -/
def map2 (f : α → β → γ) (x : Checked α) (y : Checked β) : Checked γ :=
  (x.both y).map fun (a, b) => f a b

/-- Keeps a value only if the other faults are none. -/
def alongside (x : Checked α) (others : List Fault) : Checked α :=
  match x with
  | .ok a => if others.isEmpty then .ok a else .faulty others
  | .faulty fs => .faulty (fs ++ others)

/-- A value that was read is changed. -/
@[simp] theorem map_ok (f : α → β) (a : α) : (Checked.ok a).map f = .ok (f a) := rfl

/-- Faults are kept when a value would be changed. -/
@[simp] theorem map_faulty (f : α → β) (fs : List Fault) :
    (Checked.faulty fs : Checked α).map f = .faulty fs := rfl

/-- A value is the same from one level further out. -/
@[simp] theorem under_ok (step : Step) (a : α) : (Checked.ok a).under step = .ok a := rfl

/-- Two values that were read are a pair. -/
@[simp] theorem both_ok (a : α) (b : β) : (Checked.ok a).both (.ok b) = .ok (a, b) := rfl

/-- Two values that were read are put together. -/
@[simp] theorem map2_ok (f : α → β → γ) (a : α) (b : β) :
    (Checked.ok a).map2 f (.ok b) = .ok (f a b) := rfl

/-- An outcome beside no other faults stays as it is. -/
@[simp] theorem alongside_nil (x : Checked α) : x.alongside [] = x := by
  cases x <;> simp [alongside]

/-- A value that was read has no faults. -/
@[simp] theorem faults_ok (a : α) : (Checked.ok a).faults = [] := rfl

/-- The faults of a failure are those that it holds. -/
@[simp] theorem faults_faulty (fs : List Fault) : (Checked.faulty fs : Checked α).faults = fs := rfl

/-- The failure with one fault has this fault, at the place itself. -/
@[simp] theorem faults_fault (kind : FaultKind) :
    (Checked.fault kind : Checked α).faults = [⟨[], kind⟩] := rfl

/-- Changing the value changes no faults. -/
@[simp] theorem faults_map (f : α → β) (x : Checked α) : (x.map f).faults = x.faults := by
  cases x <;> rfl

/-- From one level further out every fault has one more step. -/
@[simp] theorem faults_under (step : Step) (x : Checked α) :
    (x.under step).faults = x.faults.map (·.under step) := by
  cases x <;> rfl

/-- Two outcomes together have the faults of the first and then those of the second. -/
@[simp] theorem faults_both (x : Checked α) (y : Checked β) :
    (x.both y).faults = x.faults ++ y.faults := by
  cases x <;> cases y <;> rfl

/-- Two outcomes that are put together have the faults of the first and then those of the second. -/
@[simp] theorem faults_map2 (f : α → β → γ) (x : Checked α) (y : Checked β) :
    (x.map2 f y).faults = x.faults ++ y.faults := by
  rw [map2, faults_map, faults_both]

/-- An outcome beside other faults has its own and then these. -/
@[simp] theorem faults_alongside (x : Checked α) (others : List Fault) :
    (x.alongside others).faults = x.faults ++ others := by
  cases x with
  | ok a => cases others <;> rfl
  | faulty fs => rfl

/-- An outcome that has faults is nothing but these. -/
theorem eq_faulty_of_faults {x : Checked α} {fs : List Fault} (h : x.faults = fs) (hne : fs ≠ []) :
    x = .faulty fs := by
  cases x with
  | ok a => exact absurd h.symm hne
  | faulty gs => rw [← h, faults_faulty]

/-- An outcome joined of two has a value exactly when both have. -/
theorem both_eq_ok_iff {x : Checked α} {y : Checked β} {p : α × β} :
    x.both y = .ok p ↔ x = .ok p.1 ∧ y = .ok p.2 := by
  obtain ⟨a, b⟩ := p
  cases x <;> cases y <;> simp [both]

/-- A changed outcome is a value exactly if the outcome was one that changes to it. -/
theorem map_eq_ok_iff {f : α → β} {x : Checked α} {b : β} :
    x.map f = .ok b ↔ ∃ a, x = .ok a ∧ f a = b := by
  cases x <;> simp

/-- An outcome is a value from one level further out exactly if it is the same value there. -/
theorem under_eq_ok_iff {step : Step} {x : Checked α} {a : α} :
    x.under step = .ok a ↔ x = .ok a := by
  cases x <;> simp [under]

/-- Two outcomes give a value together exactly if both are values, which make it up. -/
theorem map2_eq_ok_iff {f : α → β → γ} {x : Checked α} {y : Checked β} {c : γ} :
    x.map2 f y = .ok c ↔ ∃ a b, x = .ok a ∧ y = .ok b ∧ f a b = c := by
  simp [map2, map_eq_ok_iff, both_eq_ok_iff, and_assoc]

/-- An outcome beside other faults is a value exactly if it is one and there are no others. -/
theorem alongside_eq_ok_iff {x : Checked α} {others : List Fault} {a : α} :
    x.alongside others = .ok a ↔ x = .ok a ∧ others = [] := by
  cases x with
  | ok b => by_cases h : others.isEmpty <;> simp_all [alongside]
  | faulty fs => simp [alongside]

end Checked

end PageOutline.Schema
