import PageOutline.Text.Digit
import PageOutline.Text.Blank

/-!
# Numerals

Whole numbers as people write them: blanks around, an optional sign, digits, and single
underscores between digits. The class of digits is a parameter. `decimalInteger?` reads a whole
text this way with the digits of any script, and `markedInteger?` reads other bases.
-/

namespace PageOutline.Text

/-- Reads the longest run of digits with single underscores between them. `joined` says that a
digit stands before the text, so that an underscore may come first. -/
def digitRun (digit? : Char → Option Nat) : Bool → List Char → List Nat × List Char
  | _, [] => ([], [])
  | joined, c :: rest =>
    match digit? c with
    | some d =>
      let (ds, tail) := digitRun digit? true rest
      (d :: ds, tail)
    | none =>
      if joined && c == '_' then
        match digitRun digit? false rest with
        | ([], _) => ([], c :: rest)
        | (ds, tail) => (ds, tail)
      else ([], c :: rest)

/-- Splits off a sign; the first component tells whether it was a minus. -/
def splitSign : List Char → Bool × List Char
  | '-' :: rest => (true, rest)
  | '+' :: rest => (false, rest)
  | s => (false, s)

/-- Gives a natural number its sign. -/
def signed (negative : Bool) (n : Nat) : Int :=
  if negative then -(n : Int) else n

/-- The most digits that a numeral may have, leading zeros included. -/
def maxDigits : Nat := 4300

/-- Reads a text that is one numeral with a sign. -/
def integer? (digit? : Char → Option Nat) (s : List Char) : Option Int :=
  let (negative, body) := splitSign s
  match digitRun digit? false body with
  | ([], _) => none
  | (ds, []) => if ds.length ≤ maxDigits then some (signed negative (ofDigits 10 ds)) else none
  | (_, _ :: _) => none

/-- Reads a numeral in the decimal digits of any script, with blanks around it. -/
def decimalInteger? (s : String) : Option Int :=
  integer? decimalDigit? (trim isBlank s.toList)

/-- Reads a numeral in base two, eight or sixteen with blanks around it. A zero and a letter may
announce the base. -/
def markedInteger? (base : Nat) (mark : Char) (s : List Char) : Option Int :=
  let digit? (c : Char) : Option Nat := (decimalDigit? c).or (hexDigit? c)
  let (negative, body) := splitSign (trim isBlank s)
  let body := match body with
    | '0' :: c :: rest => if c.toLower = mark then rest else body
    | _ => body
  match body.mapM digit? with
  | none => none
  | some ds =>
    if ds.isEmpty || ds.any (base ≤ ·) then none else some (signed negative (ofDigits base ds))

end PageOutline.Text
