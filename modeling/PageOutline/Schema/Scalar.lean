import PageOutline.Schema.Fault
import PageOutline.Value.Knot

/-!
# Scalars and lists

Readers for the leaves of a schema. They are lenient: a whole number may be written as a text, a
float without a fraction or a truth value; a truth value may be one of the customary words; a text
may come as UTF-8 bytes; any sequence may stand for a list.
-/

namespace PageOutline.Schema

/-- Reads a value and reports what is wrong with it. -/
abbrev Reader (α : Type) := Value → Checked α

/-- The text that bytes hold. -/
def utf8? (b : List UInt8) : Option String := String.fromUTF8? ⟨b.toArray⟩

/-- The text from its first digit that counts. Behind a leading zero further zeros, underscores
among them, are passed over up to another digit or a minus. Of zeros before a point or at the end
the last character stays. `last` is the character before the text. -/
def skipZeros (last : Char) : List Char → Option (List Char)
  | [] => some [last]
  | c :: rest =>
    if c == '0' || c == '_' then skipZeros c rest
    else if ('1' ≤ c && c ≤ '9') || c == '-' then some (c :: rest)
    else if c == '.' then some (last :: c :: rest)
    else none

/-- A text without leading zeros. It starts with a digit or a minus. -/
def dropLeadingZeros : List Char → Option (List Char)
  | [] => none
  | c :: rest =>
    if c == '0' then skipZeros c rest
    else if ('1' ≤ c && c ≤ '9') || c == '-' then some (c :: rest)
    else none

/-- A text without the fraction at its end, if that has zeros only. -/
def dropZeroFraction (s : List Char) : List Char :=
  match s.span (· != '.') with
  | (whole, _ :: zero :: zeros) => if (zero :: zeros).all (· == '0') then whole else s
  | _ => s

/-- Whether two underscores follow each other. -/
def hasDoubleUnderscore : List Char → Bool
  | a :: b :: rest => (a == '_' && b == '_') || hasDoubleUnderscore (b :: rest)
  | _ => false

/-- A text without its underscores, if they stand singly within it. -/
def joinDigits (s : List Char) : List Char :=
  if s.head? == some '_' || s.getLast? == some '_' || hasDoubleUnderscore s then s
  else s.filter (· != '_')

/-- Reads ASCII digits without leading zeros, possibly behind a minus. -/
def plainInt? (s : List Char) : Option Int :=
  let (negative, digits) := match s with
    | '-' :: rest => (true, rest)
    | _ => (false, s)
  if digits == ['0'] then some 0
  else if digits.isEmpty || digits.head? == some '0' || Text.maxDigits < s.length then none
  else (digits.mapM Text.asciiDigit?).map fun ds => Text.signed negative (Text.ofDigits 10 ds)

/-- Whether a text starts with digits, the first of them no zero, that are too many together with a
minus before them. -/
def startsTooLong (s : List Char) : Bool :=
  let digits := if s.head? == some '-' then s.drop 1 else s
  let run := digits.takeWhile fun c => (Text.asciiDigit? c).isSome
  run.head?.any (· != '0') && Text.maxDigits < s.length - digits.length + run.length

/-- Reads a whole number in ASCII digits with blanks around it: a sign, digits with underscores
between them, and possibly a fraction of zeros only. -/
def intOfText (s : String) : Checked Int :=
  let s := s.toList
  if startsTooLong s then .fault .intParsingSize
  else
    let body := match Text.trim Text.isBlank s with
      | '+' :: '-' :: _ => []
      | '+' :: rest => rest
      | body => body
    match (dropLeadingZeros body).bind fun s => plainInt? (joinDigits (dropZeroFraction s)) with
    | some i => .ok i
    | none => .fault .intParsing

/-- Floats stand for whole numbers up to this bound, exclusive. -/
def floatIntBound : Int := Nat.pow 2 63

/-- Reads a whole number. -/
def readInt : Reader Int
  | .int i => .ok i
  | .bool b => .ok (if b then 1 else 0)
  | .float x =>
    match x.toRatio?, x.toInt? with
    | none, _ => .fault .finiteNumber
    | some _, none => .fault .intFromFloat
    | some _, some i =>
      if -floatIntBound < i ∧ i < floatIntBound then .ok i else .fault .intParsingSize
  | .str s => intOfText s
  | .points _ => .fault .stringUnicode
  | .bytes b =>
    match utf8? b with
    | some s => intOfText s
    | none => .fault .intParsing
  | _ => .fault .intType

/-- Keeps an integer that is not negative. -/
def readNat : Reader Nat := fun v =>
  match readInt v with
  | .ok i => if 0 ≤ i then .ok i.toNat else .fault .greaterThanEqual
  | .faulty fs => .faulty fs

/-- Keeps an integer that is a code. -/
def readCode (limit : Int) : Reader Int := fun v =>
  match readInt v with
  | .ok i =>
    if i < 0 then .fault .greaterThanEqual
    else if limit < i then .fault .lessThanEqual
    else .ok i
  | .faulty fs => .faulty fs

/-- Reads null as nothing. -/
def readOptional {α : Type} (read : Reader α) : Reader (Option α)
  | .null => .ok none
  | v => (read v).map some

/-- Reads a text. -/
def readText : Reader String
  | .str s => .ok s
  | .points _ => .fault .stringUnicode
  | .bytes b =>
    match utf8? b with
    | some s => .ok s
    | none => .fault .stringUnicode
  | _ => .fault .stringType

/-- The words for false and true, in lower case. -/
def flagOfWord? (s : String) : Option Bool :=
  let word := s.toLower
  if ["0", "off", "f", "false", "n", "no"].contains word then some false
  else if ["1", "on", "t", "true", "y", "yes"].contains word then some true
  else none

/-- The integers that a truth value may be written as fit into 64 bits with a sign. -/
def isSmallInt (i : Int) : Bool := -floatIntBound ≤ i && i < floatIntBound

/-- The truth value of a number. -/
def flagOfInt (i : Int) : Checked Bool :=
  if i = 0 then .ok false
  else if i = 1 then .ok true
  else if isSmallInt i then .fault .boolParsing
  else .fault .boolType

/-- The truth value that a word stands for, with no blanks around it. -/
def flagOfText (s : String) : Checked Bool :=
  match flagOfWord? s with
  | some b => .ok b
  | none => .fault .boolParsing

/-- Reads a truth value. -/
def readFlag : Reader Bool
  | .bool b => .ok b
  | .str s => flagOfText s
  | .points _ => .fault .stringUnicode
  | .bytes b =>
    match utf8? b with
    | some s => flagOfText s
    | none => .fault .boolParsing
  | .int i => flagOfInt i
  | .float x =>
    match x.toInt? with
    | some i => if i = -floatIntBound then .fault .boolType else flagOfInt i
    | none => .fault .boolType
  | _ => .fault .boolType

/-- Reads one of some words, written exactly. -/
def readChoice {α : Type} (choices : List (String × α)) : Reader α
  | .str s =>
    match choices.lookup s with
    | some a => .ok a
    | none => .fault .enumValue
  | .points _ => .fault .stringUnicode
  | _ => .fault .enumValue

/-- Reads the items of a sequence, each at its index from `start` on. -/
def readItems {α : Type} (read : Reader α) : Nat → List Value → Checked (List α)
  | _, [] => .ok []
  | start, v :: rest =>
    Checked.map2 List.cons ((read v).under (.number start)) (readItems read (start + 1) rest)

/-- Reads a list. -/
def readList {α : Type} (read : Reader α) : Reader (List α) := fun v =>
  match v.reveal with
  | .list xs => readItems read 0 xs
  | .tuple xs => readItems read 0 xs
  | .set xs => readItems read 0 xs
  | _ => .fault .listType

end PageOutline.Schema
