import PageOutline.Value.Basic
import PageOutline.Text.Printable

/-!
# Literals

Values written the way one would type them in. Texts are quoted and every unprintable character is
escaped, so the literal of a value is one line whatever the value holds. `Value.display` is the
same except that a text stands for itself.
-/

namespace PageOutline

namespace Text

/-- A digit of base sixteen in lower case. -/
def hexChar (n : Nat) : Char :=
  if n < 10 then Char.ofNat (48 + n) else Char.ofNat (87 + n)

/-- The `width` lowest digits of a number in base sixteen. -/
def hexDigits : Nat → Nat → List Char
  | 0, _ => []
  | width + 1, n => hexDigits width (n / 16) ++ [hexChar (n % 16)]

/-- The escape of a character by its code point, in the shortest of three widths. -/
def escapeCode (n : Nat) : List Char :=
  if n < 0x100 then '\\' :: 'x' :: hexDigits 2 n
  else if n < 0x10000 then '\\' :: 'u' :: hexDigits 4 n
  else '\\' :: 'U' :: hexDigits 8 n

/-- One character between quotes of the given kind. -/
def quotedChar (quote c : Char) : List Char :=
  if c == quote || c == '\\' then ['\\', c]
  else if c == '\n' then ['\\', 'n']
  else if c == '\r' then ['\\', 'r']
  else if c == '\t' then ['\\', 't']
  else if isPrintable c then [c]
  else escapeCode c.toNat

/-- Single quotes, unless the text has those and no double ones. -/
def quoteFor (s : List Char) : Char :=
  if s.contains '\'' && !s.contains '"' then '"' else '\''

/-- A text in quotes. -/
def quoted (s : List Char) : List Char :=
  let quote := quoteFor s
  quote :: s.flatMap (quotedChar quote) ++ [quote]

/-- A text in quotes, given by its code points; those that are no characters are escaped. -/
def quotedPoints (ps : List Nat) : List Char :=
  let quote := quoteFor (charsOfPoints ps)
  let shown (n : Nat) : List Char :=
    match pointChar? n with
    | some c => quotedChar quote c
    | none => escapeCode n
  quote :: ps.flatMap shown ++ [quote]

/-- Bytes in quotes: ASCII as itself and every other byte escaped. -/
def quotedBytes (b : List UInt8) : List Char :=
  let s := b.map fun x => Char.ofNat x.toNat
  let quote := quoteFor s
  let shown (c : Char) : List Char :=
    if c.toNat < 127 then quotedChar quote c else escapeCode c.toNat
  'b' :: quote :: s.flatMap shown ++ [quote]

end Text

/-- A natural number with leading zeros up to a width. -/
def paddedNat (width n : Nat) : String :=
  let digits := toString n
  "".pushn '0' (width - digits.length) ++ digits

namespace Date

/-- A date as it is written in code. -/
def literal (d : Date) : String :=
  s!"datetime.date({d.year}, {d.month}, {d.day})"

/-- Year, month and day with dashes. -/
def display (d : Date) : String :=
  paddedNat 4 d.year ++ "-" ++ paddedNat 2 d.month ++ "-" ++ paddedNat 2 d.day

end Date

namespace Instant

/-- An offset in whole days and the seconds left over, the days rounded down. -/
def offsetLiteral (minutes : Int) : String :=
  if minutes = 0 then "datetime.timezone.utc"
  else
    let days := minutes.fdiv 1440
    let seconds := minutes.fmod 1440 * 60
    let parts := (if days = 0 then [] else [s!"days={days}"]) ++
      (if seconds = 0 then [] else [s!"seconds={seconds}"])
    "datetime.timezone(datetime.timedelta(" ++ ", ".intercalate parts ++ "))"

/-- Seconds and microseconds are left out from the end when they are zero. -/
def literal (t : Instant) : String :=
  let clock := [t.date.year, t.date.month, t.date.day, t.hour, t.minute] ++
    (if t.microsecond ≠ 0 then [t.second, t.microsecond]
      else if t.second ≠ 0 then [t.second] else [])
  let zone := match t.offset? with
    | some o => [s!"tzinfo=" ++ offsetLiteral o]
    | none => []
  "datetime.datetime(" ++ ", ".intercalate (clock.map toString ++ zone) ++ ")"

/-- Day and time of day, with microseconds only if there are any, and the offset. -/
def display (t : Instant) : String :=
  let clock := paddedNat 2 t.hour ++ ":" ++ paddedNat 2 t.minute ++ ":" ++ paddedNat 2 t.second
  let fraction := if t.microsecond = 0 then "" else "." ++ paddedNat 6 t.microsecond
  let zone := match t.offset? with
    | some o =>
      (if o < 0 then "-" else "+") ++ paddedNat 2 (o.natAbs / 60) ++ ":" ++
        paddedNat 2 (o.natAbs % 60)
    | none => ""
  t.date.display ++ " " ++ clock ++ fraction ++ zone

end Instant

namespace Value

mutual

/-- The literal of a value. -/
def literal : Value → String
  | .null => "None"
  | .bool b => if b then "True" else "False"
  | .int i => toString i
  | .float x => x.toText .standard
  | .str s => String.ofList (Text.quoted s.toList)
  | .points ps => String.ofList (Text.quotedPoints ps)
  | .bytes b => String.ofList (Text.quotedBytes b)
  | .list xs => "[" ++ ", ".intercalate (literals xs) ++ "]"
  | .tuple [x] => "(" ++ literal x ++ ",)"
  | .tuple xs => "(" ++ ", ".intercalate (literals xs) ++ ")"
  | .dict es => "\x7b" ++ ", ".intercalate (entryLiterals es) ++ "\x7d"
  | .set [] => "set()"
  | .set xs => "\x7b" ++ ", ".intercalate (literals xs) ++ "\x7d"
  | .date d => d.literal
  | .instant t => t.literal
  | .knot _ v => literal v
  | .again _ => "[...]"

/-- The literals of a list's items. -/
def literals : List Value → List String
  | [] => []
  | x :: xs => literal x :: literals xs

/-- The literals of a dictionary's entries. -/
def entryLiterals : List (Value × Value) → List String
  | [] => []
  | (key, value) :: rest => (literal key ++ ": " ++ literal value) :: entryLiterals rest

end

mutual

/-- Whether a value has a literal: it must not hold an integer with more digits than a numeral may
have. -/
def hasLiteral : Value → Bool
  | .int i => i.natAbs < Nat.pow 10 Text.maxDigits
  | .list xs => haveLiterals xs
  | .tuple xs => haveLiterals xs
  | .set xs => haveLiterals xs
  | .dict es => entriesHaveLiterals es
  | .knot _ v => hasLiteral v
  | _ => true

/-- Whether all items of a list have literals. -/
def haveLiterals : List Value → Bool
  | [] => true
  | x :: xs => hasLiteral x && haveLiterals xs

/-- Whether all entries of a dictionary have literals. -/
def entriesHaveLiterals : List (Value × Value) → Bool
  | [] => true
  | (key, value) :: rest => hasLiteral key && hasLiteral value && entriesHaveLiterals rest

end

/-- A value as it stands in running text. -/
def display : Value → String
  | .str s => s
  | .points ps => String.ofList (Text.charsOfPoints ps)
  | .date d => d.display
  | .instant t => t.display
  | v => v.literal

end Value

end PageOutline
