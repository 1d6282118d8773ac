import PageOutline.Binary64.Text
import PageOutline.Text.Point
import PageOutline.Value.Calendar

/-!
# Values

The data that command parameters, descriptor tables and settings are made of. `sameValue` is the
equality of the data format: numbers compare by value across their kinds, `true` counts as one and
`false` as zero, lists differ from tuples, and the order of a dictionary's entries does not matter.

A text that holds surrogates is kept as its code points. A collection that contains itself is a
`knot`; within it, `again` stands for the whole.
-/

namespace PageOutline

/-- A piece of data. -/
inductive Value where
  | null
  | bool (b : Bool)
  | int (i : Int)
  | float (x : Binary64)
  | str (s : String)
  /-- A text with surrogates among its code points. -/
  | points (ps : List Nat)
  | bytes (b : List UInt8)
  | list (items : List Value)
  | tuple (items : List Value)
  | dict (entries : List (Value × Value))
  | set (members : List Value)
  | date (d : Date)
  | instant (t : Instant)
  /-- A collection that may contain itself, with a number that names it. -/
  | knot (id : Nat) (collection : Value)
  /-- The collection around it that has the number. -/
  | again (id : Nat)

namespace Value

instance : Inhabited Value := ⟨.null⟩

/-- The name of a value's kind in messages. -/
def kindName : Value → String
  | .null => "NoneType"
  | .bool _ => "bool"
  | .int _ => "int"
  | .float _ => "float"
  | .str _ => "str"
  | .points _ => "str"
  | .bytes _ => "bytes"
  | .list _ => "list"
  | .tuple _ => "tuple"
  | .dict _ => "dict"
  | .set _ => "set"
  | .date _ => "date"
  | .instant _ => "datetime"
  | .knot _ v => v.kindName
  | .again _ => "list"

/-- Whether a value counts as true: zeros, empty texts and containers and null do not. -/
def isTruthy : Value → Bool
  | .null => false
  | .bool b => b
  | .int i => i != 0
  | .float x => !x.isInt 0
  | .str s => !s.isEmpty
  | .points ps => !ps.isEmpty
  | .bytes b => !b.isEmpty
  | .list xs => !xs.isEmpty
  | .tuple xs => !xs.isEmpty
  | .dict es => !es.isEmpty
  | .set xs => !xs.isEmpty
  | .date _ => true
  | .instant _ => true
  | .knot _ v => v.isTruthy
  | .again _ => true

mutual

/-- Whether a value may be a dictionary's key: containers that can change may not, and a tuple only
if its items may. -/
def isHashable : Value → Bool
  | .list _ => false
  | .dict _ => false
  | .set _ => false
  | .knot _ _ => false
  | .again _ => false
  | .tuple xs => areHashable xs
  | _ => true

/-- Whether all items of a list may be keys. -/
def areHashable : List Value → Bool
  | [] => true
  | x :: xs => isHashable x && areHashable xs

end

/-- The integer that a value is when used as a number; truth values count as zero and one. -/
def asInt? : Value → Option Int
  | .bool b => some (if b then 1 else 0)
  | .int i => some i
  | _ => none

/-- The integer that a value equals. -/
def equalInt? : Value → Option Int
  | .float x => x.toInt?
  | v => v.asInt?

mutual

/-- Equality of values by meaning. -/
def sameValue : Value → Value → Bool
  | .null, .null => true
  | .bool a, .bool b => a == b
  | .bool a, .int j => j == if a then 1 else 0
  | .bool a, .float y => y.isInt (if a then 1 else 0)
  | .int i, .bool b => i == if b then 1 else 0
  | .int i, .int j => i == j
  | .int i, .float y => y.isInt i
  | .float x, .bool b => x.isInt (if b then 1 else 0)
  | .float x, .int j => x.isInt j
  | .float x, .float y => x.sameValue y
  | .str s, .str t => s == t
  | .points ps, .points qs => ps == qs
  | .bytes a, .bytes b => a == b
  | .list xs, .list ys => sameItems xs ys
  | .tuple xs, .tuple ys => sameItems xs ys
  | .dict xs, .dict ys => xs.length == ys.length && sameEntries xs ys
  | .set xs, .set ys => xs.length == ys.length && sameMembers xs ys
  | .date a, .date b => a == b
  | .instant a, .instant b => a.same b
  | _, _ => false

/-- Equality item by item. -/
def sameItems : List Value → List Value → Bool
  | [], [] => true
  | x :: xs, y :: ys => sameValue x y && sameItems xs ys
  | _, _ => false

/-- Every entry has an equal one on the other side. -/
def sameEntries : List (Value × Value) → List (Value × Value) → Bool
  | [], _ => true
  | (key, value) :: rest, others =>
    others.any (fun o => sameValue key o.1 && sameValue value o.2) && sameEntries rest others

/-- Every member has an equal one on the other side. -/
def sameMembers : List Value → List Value → Bool
  | [], _ => true
  | x :: rest, others => others.any (sameValue x) && sameMembers rest others

end

/-- The text of some code points. -/
def ofPoints (ps : List Nat) : Value :=
  match Text.ofPoints? ps with
  | some s => .str s
  | none => .points ps

/-- The code points of a text; other values have none. -/
def textPoints? : Value → Option (List Nat)
  | .str s => some (s.toList.map Char.toNat)
  | .points ps => some ps
  | _ => none

/-- Gives a key a value. A key that is there already keeps its place and its form. -/
def setEntry (key value : Value) : List (Value × Value) → List (Value × Value)
  | [] => [(key, value)]
  | e :: rest =>
    if sameValue e.1 key then (e.1, value) :: rest else e :: setEntry key value rest

/-- The dictionary of some entries: of equal keys the first gives the place and the last the
value. -/
def dictOf (entries : List (Value × Value)) : Value :=
  .dict (entries.foldl (fun es e => setEntry e.1 e.2 es) [])

/-- The set of some values; of equal ones the first is its member. -/
def setOf (members : List Value) : Value :=
  .set (members.foldl (fun ms v => if ms.any (sameValue · v) then ms else ms ++ [v]) [])

/-- Looks a text key up. -/
def lookup? (entries : List (Value × Value)) (key : String) : Option Value :=
  (entries.find? fun e => match e.1 with
    | .str k => k == key
    | _ => false).map (·.2)

end Value

end PageOutline
