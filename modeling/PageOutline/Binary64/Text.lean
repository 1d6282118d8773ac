import PageOutline.Binary64.Shortest
import PageOutline.Text.Numeral

/-!
# Doubles as text

`toText` writes the shortest decimal, and a record of type `Layout` says how it is laid out.
`ofText?` reads a decimal in any script's digits, with underscores between digits, or the name of
an infinity or of NaN. `ofDecimal` is the exact reading of a decimal.
-/

namespace PageOutline.Binary64

/-- How a decimal is laid out. -/
structure Layout where
  /-- the least leading exponent that is written without an exponent part -/
  leastPositional : Int
  /-- the greatest leading exponent that is written without an exponent part -/
  greatestPositional : Int
  /-- the least number of digits of an exponent part -/
  exponentWidth : Nat

/-- Positional from one ten-thousandth up to sixteen digits before the point; at least two digits
of exponent. -/
def Layout.standard : Layout := ⟨-4, 15, 2⟩

/-- The exponent part: its sign is always written. -/
def Layout.exponentText (l : Layout) (e : Int) : String :=
  let digits := toString e.natAbs
  (if e < 0 then "e-" else "e+") ++ "".pushn '0' (l.exponentWidth - digits.length) ++ digits

/-- A positive decimal: in positional notation at least one digit stands on each side of the point,
in the other one digit stands before it. -/
def Layout.decimalText (l : Layout) (d : Decimal) : String :=
  let digits := toString d.digits
  let leading := d.exponent + digits.length - 1
  if l.leastPositional ≤ leading ∧ leading ≤ l.greatestPositional then
    if 0 ≤ d.exponent then digits ++ "".pushn '0' d.exponent.toNat ++ ".0"
    else if 0 ≤ leading then
      let whole := (leading + 1).toNat
      String.ofList (digits.toList.take whole) ++ "." ++ String.ofList (digits.toList.drop whole)
    else "0." ++ "".pushn '0' (-leading - 1).toNat ++ digits
  else
    let first := String.ofList (digits.toList.take 1)
    let others := String.ofList (digits.toList.drop 1)
    (if others.isEmpty then first else first ++ "." ++ others) ++ l.exponentText leading

/-- The text of a double: the shortest decimal that reads back, with the sign of a zero kept. -/
def toText (l : Layout) : Binary64 → String
  | .finite negative mantissa exponent _ =>
    let body := if mantissa = 0 then "0.0" else l.decimalText (shortest mantissa exponent)
    if negative then "-" ++ body else body
  | .infinity negative => if negative then "-inf" else "inf"
  | .nan => "nan"

/-- The double nearest to the decimal `digits * 10 ^ exponent`. A decimal whose leading digit is far
outside the range of doubles is decided without computing the power. -/
def ofDecimal (negative : Bool) (digits : Nat) (exponent : Int) : Binary64 :=
  let leading := exponent + decimalLength digits
  if digits = 0 ∨ leading < -400 then zero negative
  else if 400 < leading then .infinity negative
  else if 0 ≤ exponent then ofRatio negative (digits * Nat.pow 10 exponent.toNat) 1
  else ofRatio negative digits (Nat.pow 10 (-exponent).toNat)

/-- Reads the exponent part of a decimal; a text without one has exponent zero. -/
def readExponent? : List Char → Option Int
  | [] => some 0
  | c :: rest =>
    if c == 'e' || c == 'E' then
      let (negative, body) := Text.splitSign rest
      match Text.digitRun Text.decimalDigit? false body with
      | (d :: ds, []) => some (Text.signed negative (Text.ofDigits 10 (d :: ds)))
      | _ => none
    else none

/-- Reads an unsigned decimal: digits on at least one side of an optional point. -/
def readDecimal? (negative : Bool) (s : List Char) : Option Binary64 :=
  let (whole, rest) := Text.digitRun Text.decimalDigit? false s
  let (fraction, rest) :=
    match rest with
    | '.' :: more => Text.digitRun Text.decimalDigit? false more
    | _ => ([], rest)
  if whole.isEmpty && fraction.isEmpty then none
  else
    (readExponent? rest).map fun e =>
      ofDecimal negative (Text.ofDigits 10 (whole ++ fraction)) (e - fraction.length)

/-- Reads a number with blanks around it: a decimal, or one of the words `inf`, `infinity` and
`nan` in any case, with an optional sign. -/
def ofText? (s : String) : Option Binary64 :=
  let (negative, body) := Text.splitSign (Text.trim Text.isBlank s.toList)
  let word := String.ofList (body.map Char.toLower)
  if word = "inf" ∨ word = "infinity" then some (.infinity negative)
  else if word = "nan" then some .nan
  else readDecimal? negative body

end PageOutline.Binary64
