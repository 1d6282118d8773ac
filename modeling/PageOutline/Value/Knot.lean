import PageOutline.Value.Basic

/-!
# Knots

Collections that contain themselves. `Value.reveal` shows what a knot holds, with the knot itself in
the place of every reference to it, so a reader may go down as far as it likes. `Value.size` counts
the parts of a value as it is written, where a reference counts as one.
-/

namespace PageOutline.Value

mutual

/-- Puts a value in the place of the references with a number, except within a knot of that
number. -/
def tie (id : Nat) (whole : Value) : Value → Value
  | .again n => if n = id then whole else .again n
  | .knot n v => if n = id then .knot n v else .knot n (tie id whole v)
  | .list xs => .list (tieItems id whole xs)
  | .tuple xs => .tuple (tieItems id whole xs)
  | .dict es => .dict (tieEntries id whole es)
  | v => v

/-- Puts the value in the place of references in the items of a list. -/
def tieItems (id : Nat) (whole : Value) : List Value → List Value
  | [] => []
  | x :: xs => tie id whole x :: tieItems id whole xs

/-- Puts the value in the place of references in the values of a dictionary. -/
def tieEntries (id : Nat) (whole : Value) : List (Value × Value) → List (Value × Value)
  | [] => []
  | (key, value) :: es => (key, tie id whole value) :: tieEntries id whole es

end

/-- What a knot holds; any other value is shown as it is. -/
def reveal : Value → Value
  | .knot id v => tie id (.knot id v) v
  | v => v

/-- The number of a knot. -/
def knotId? : Value → Option Nat
  | .knot id _ => some id
  | _ => none

mutual

/-- The number of parts that a value is written with. -/
def size : Value → Nat
  | .list xs => sizes xs + 1
  | .tuple xs => sizes xs + 1
  | .set xs => sizes xs + 1
  | .dict es => entrySizes es + 1
  | .knot _ v => size v + 1
  | _ => 1

/-- The sizes of a list's items together. -/
def sizes : List Value → Nat
  | [] => 0
  | x :: xs => size x + sizes xs

/-- The sizes of a dictionary's values together. -/
def entrySizes : List (Value × Value) → Nat
  | [] => 0
  | (_, v) :: es => size v + entrySizes es

end

/-- Every value is written with one part at least. -/
theorem size_pos (v : Value) : 0 < v.size := by
  cases v <;> simp [size]

/-- A dictionary that is no knot is shown as it is. -/
@[simp] theorem reveal_dict (es : List (Value × Value)) : reveal (.dict es) = .dict es := rfl

/-- A list that is no knot is shown as it is. -/
@[simp] theorem reveal_list (xs : List Value) : reveal (.list xs) = .list xs := rfl

/-! ### Parts one after the other -/

/-- A value is put in the place of references in each item of a list by itself. -/
theorem tieItems_eq_map (id : Nat) (whole : Value) (xs : List Value) :
    tieItems id whole xs = xs.map (tie id whole) := by
  induction xs with
  | nil => rfl
  | cons x xs ih => rw [tieItems, ih, List.map_cons]

/-- A value is put in the place of references in each value of a dictionary by itself, and the keys
stay. -/
theorem tieEntries_eq_map (id : Nat) (whole : Value) (es : List (Value × Value)) :
    tieEntries id whole es = es.map fun e => (e.1, tie id whole e.2) := by
  induction es with
  | nil => rfl
  | cons e es ih => rw [tieEntries, ih, List.map_cons]

/-- The sizes of the items of two lists add up. -/
theorem sizes_append (xs ys : List Value) : sizes (xs ++ ys) = sizes xs + sizes ys := by
  induction xs with
  | nil => simp [sizes]
  | cons x xs ih => rw [List.cons_append, sizes, sizes, ih, Nat.add_assoc]

/-- The sizes of the entries of two dictionaries add up. -/
theorem entrySizes_append (es es' : List (Value × Value)) :
    entrySizes (es ++ es') = entrySizes es + entrySizes es' := by
  induction es with
  | nil => simp [entrySizes]
  | cons e es ih => rw [List.cons_append, entrySizes, entrySizes, ih, Nat.add_assoc]

end PageOutline.Value
