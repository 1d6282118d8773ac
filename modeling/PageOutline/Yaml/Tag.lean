import PageOutline.Text.Digit

/-!
# Tags

A tag says what a node is. Plain scalars without a tag get one by their form: `implicitTag` knows
the words for null and the truth values, the forms of whole numbers in four bases and in base
sixty, decimals, days and times.
-/

namespace PageOutline.Yaml

/-- The kinds of nodes. -/
inductive Tag where
  | null
  | bool
  | int
  | float
  | binary
  | timestamp
  | omap
  | pairs
  | set
  | str
  | seq
  | map
  /-- The key whose value is merged into the mapping. -/
  | merge
  /-- The key of a mapping's default value. -/
  | value
  | other (name : String)
deriving DecidableEq

/-- What the tags of the core kinds start with. -/
def coreStem : String := "tag:yaml.org,2002:"

/-- The tag with a name in full. -/
def Tag.ofText (s : String) : Tag :=
  let known : List (String × Tag) := [("null", .null), ("bool", .bool), ("int", .int),
    ("float", .float), ("binary", .binary), ("timestamp", .timestamp), ("omap", .omap),
    ("pairs", .pairs), ("set", .set), ("str", .str), ("seq", .seq), ("map", .map),
    ("merge", .merge), ("value", .value)]
  match known.find? fun (name, _) => coreStem ++ name == s with
  | some (_, t) => t
  | none => .other s

/-- Digits of base ten and underscores. -/
def isLooseDigit (c : Char) : Bool := c.isDigit || c == '_'

/-- Splits off a sign. -/
def dropSign : List Char → List Char
  | '-' :: s => s
  | '+' :: s => s
  | s => s

/-- A decimal digit and then digits and underscores. -/
def isLooseNumber : List Char → Bool
  | c :: s => c.isDigit && s.all isLooseDigit
  | [] => false

/-- One place of a number in base sixty. -/
def isSixtieth : List Char → Bool
  | [b] => b.isDigit
  | [a, b] => '0' ≤ a && a ≤ '5' && b.isDigit
  | _ => false

/-- The parts of a text between colons. -/
def splitColons (s : List Char) : List (List Char) := s.splitOn ':'

/-- The forms of whole numbers. -/
def isIntForm (s : List Char) : Bool :=
  let s := dropSign s
  match s with
  | [] => false
  | '0' :: 'b' :: d :: ds => (d :: ds).all fun c => c == '0' || c == '1' || c == '_'
  | '0' :: 'x' :: d :: ds => (d :: ds).all fun c => (Text.hexDigit? c).isSome || c == '_'
  | '0' :: ds => ds.all fun c => ('0' ≤ c && c ≤ '7') || c == '_'
  | _ :: _ =>
    match splitColons s with
    | first :: rest => isLooseNumber first && rest.all isSixtieth
    | [] => false

/-- An exponent with its sign, or nothing. -/
def isExponentForm : List Char → Bool
  | [] => true
  | e :: sign :: d :: ds =>
    (e == 'e' || e == 'E') && (sign == '-' || sign == '+') && (d :: ds).all (·.isDigit)
  | _ => false

/-- The forms of decimals. -/
def isFloatForm (s : List Char) : Bool :=
  let t := dropSign s
  let word := String.ofList t
  if word == ".inf" || word == ".Inf" || word == ".INF" then true
  else if [".nan", ".NaN", ".NAN"].contains (String.ofList s) then true
  else
    match t.span (· != '.') with
    | ([], _ :: d :: fraction) =>
      -- without digits before the point there is no sign either
      s.head? == some '.' && d.isDigit && isExponentForm (fraction.dropWhile isLooseDigit)
    | (whole, _ :: fraction) =>
      match splitColons whole with
      | [digits] => isLooseNumber digits && isExponentForm (fraction.dropWhile isLooseDigit)
      | first :: rest =>
        isLooseNumber first && rest.all isSixtieth && fraction.all isLooseDigit
      | [] => false
    | (_, []) => false

/-- The parts of a day or time as they are written. -/
structure TimeForm where
  year : Nat
  month : Nat
  day : Nat
  /-- Whether month and day have two digits. -/
  padded : Bool
  clock? : Option (Nat × Nat × Nat)
  fraction : List Nat
  /-- The offset in minutes. -/
  offset? : Option Int

/-- Between one and `most` digits. -/
def takeDigits (least most : Nat) (s : List Char) : Option (List Nat × List Char) :=
  let digits := ((s.take most).takeWhile (·.isDigit)).filterMap Text.asciiDigit?
  if least ≤ digits.length then some (digits, s.drop digits.length) else none

/-- Drops a character that has to be there. -/
def dropChar (c : Char) : List Char → Option (List Char)
  | d :: s => if c = d then some s else none
  | [] => none

/-- The offset at the end of a time. -/
def offsetForm? (s : List Char) : Option (Option Int) :=
  match s.dropWhile fun c => c == ' ' || c == '\t' with
  | [] => if s.isEmpty then some none else none
  | ['Z'] => some (some 0)
  | sign :: rest => do
    if sign != '-' && sign != '+' then none
    let (hours, rest) ← takeDigits 1 2 rest
    let minutes ← match rest with
      | [] => some 0
      | ':' :: rest => do
        let (minutes, rest) ← takeDigits 2 2 rest
        if rest.isEmpty then some (Text.ofDigits 10 minutes) else none
      | _ => none
    let total : Int := Text.ofDigits 10 hours * 60 + minutes
    return some (if sign == '-' then -total else total)

/-- A text without the line break at its end; a line break alone stays. -/
def dropFinalBreak (s : List Char) : List Char :=
  if 1 < s.length ∧ s.getLast? = some '\n' then s.dropLast else s

/-- Reads a day, or a day with a time of day and possibly an offset. A line break may follow. -/
def timeForm? (s : List Char) : Option TimeForm := do
  let s := dropFinalBreak s
  let (year, s) ← takeDigits 4 4 s
  let s ← dropChar '-' s
  let (month, s) ← takeDigits 1 2 s
  let s ← dropChar '-' s
  let (day, s) ← takeDigits 1 2 s
  let padded := month.length == 2 && day.length == 2
  let date (clock? : Option (Nat × Nat × Nat)) (fraction : List Nat) (offset? : Option Int) :
      TimeForm :=
    ⟨Text.ofDigits 10 year, Text.ofDigits 10 month, Text.ofDigits 10 day, padded, clock?, fraction,
      offset?⟩
  if s.isEmpty then return date none [] none
  let s ← match s with
    | 'T' :: s => some s
    | 't' :: s => some s
    | c :: _ =>
      if c == ' ' || c == '\t' then some (s.dropWhile fun c => c == ' ' || c == '\t') else none
    | [] => none
  let (hour, s) ← takeDigits 1 2 s
  let s ← dropChar ':' s
  let (minute, s) ← takeDigits 2 2 s
  let s ← dropChar ':' s
  let (second, s) ← takeDigits 2 2 s
  let clock := (Text.ofDigits 10 hour, Text.ofDigits 10 minute, Text.ofDigits 10 second)
  let (fraction, s) := match s with
    | '.' :: s => ((s.takeWhile (·.isDigit)).filterMap Text.asciiDigit?, s.dropWhile (·.isDigit))
    | s => ([], s)
  let offset? ← offsetForm? s
  return date (some clock) fraction offset?

/-- A day is recognised without a tag only if its month and day have two digits. -/
def isTimeForm (s : List Char) : Bool :=
  match timeForm? s with
  | some t => t.padded || t.clock?.isSome
  | none => false

/-- The words for null. -/
def nullWords : List String := ["", "~", "null", "Null", "NULL"]

/-- The words for true. -/
def trueWords : List String := ["yes", "Yes", "YES", "true", "True", "TRUE", "on", "On", "ON"]

/-- The words for false. -/
def falseWords : List String := ["no", "No", "NO", "false", "False", "FALSE", "off", "Off", "OFF"]

/-- The tag that a plain scalar has by its form. A line break at the end is not part of the form. -/
def implicitTag (text : String) : Tag :=
  let s := dropFinalBreak text.toList
  let text := String.ofList s
  if trueWords.contains text || falseWords.contains text then .bool
  else if isFloatForm s then .float
  else if isIntForm s then .int
  else if text == "<<" then .merge
  else if nullWords.contains text then .null
  else if isTimeForm s then .timestamp
  else if text == "=" then .value
  else .str

end PageOutline.Yaml
