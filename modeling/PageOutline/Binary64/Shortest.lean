import PageOutline.Binary64.Basic

/-!
# Shortest decimals

The fewest significant decimal digits that read back as a given double, and of those the decimal
nearest to it. A number of digits fixes a decimal grid around the value, and if any point of the
grid rounds to the double, so does one of the value's two neighbours on it; so only these two are
tried, with one digit, then two, and so on up to seventeen.
-/

namespace PageOutline

/-- A decimal number `digits * 10 ^ exponent` without its sign. -/
structure Decimal where
  digits : Nat
  exponent : Int
deriving DecidableEq

namespace Binary64

/-- The number of decimal digits of a natural number, none for zero. -/
def decimalLength (n : Nat) : Nat :=
  if n = 0 then 0 else (Nat.toDigits 10 n).length

/-- The exponent of the leading decimal digit of a positive ratio. -/
def leadingExponent (num den : Nat) : Int :=
  if den ≤ num then decimalLength (num / den) - 1 else -(decimalLength ((den - 1) / num) : Int)

/-- The ratios that read back as one double lie between two bounds, given here over the common
denominator `den`; the bounds themselves belong to them when `closed` holds. -/
structure Rounding where
  value : Nat
  lower : Nat
  upper : Nat
  den : Nat
  closed : Bool

/-- The bounds of a positive finite number lie half way to its neighbours. Below a power of two the
neighbour is twice as near. -/
def rounding (mantissa : Nat) (exponent : Int) : Rounding :=
  let gap := if mantissa = Nat.pow 2 52 ∧ exponent ≠ -1074 then 1 else 2
  let (unit, den) := scaleRatio 1 1 (exponent - 2)
  { value := 4 * mantissa * unit
    lower := (4 * mantissa - gap) * unit
    upper := (4 * mantissa + 2) * unit
    den
    closed := mantissa % 2 == 0 }

/-- Whether the decimal `n * num / den` lies within the bounds. -/
def Rounding.admits (r : Rounding) (n num den : Nat) : Bool :=
  let x := n * num * r.den
  let low := r.lower * den
  let high := r.upper * den
  if r.closed then low ≤ x && x ≤ high else low < x && x < high

/-- The best point on the grid of multiples of `10 ^ place`, if one reads back. -/
def Rounding.onGrid? (r : Rounding) (place : Int) : Option Nat :=
  let (num, den) :=
    if 0 ≤ place then (Nat.pow 10 place.toNat, 1) else (1, Nat.pow 10 (-place).toNat)
  let below := r.value * den / (num * r.den)
  let rest := r.value * den % (num * r.den)
  match r.admits below num den, r.admits (below + 1) num den with
  | true, true => some (roundHalfEven (below * (num * r.den) + rest) (num * r.den))
  | true, false => some below
  | false, true => some (below + 1)
  | false, false => none

/-- Removes trailing zeros from the digits. The first argument bounds their number. -/
def Decimal.stripZeros : Nat → Decimal → Decimal
  | 0, d => d
  | n + 1, d =>
    if d.digits ≠ 0 ∧ d.digits % 10 = 0 then stripZeros n ⟨d.digits / 10, d.exponent + 1⟩ else d

/-- Tries grids from `count` digits on, as many as the first argument says. -/
def Rounding.search (r : Rounding) (leading : Int) : Nat → Nat → Decimal
  | 0, _ => ⟨0, 0⟩
  | tries + 1, count =>
    let place := leading - count + 1
    match r.onGrid? place with
    | some n => Decimal.stripZeros (count + 1) ⟨n, place⟩
    | none => r.search leading tries (count + 1)

/-- The shortest decimal that reads back as a finite number. -/
def shortest (mantissa : Nat) (exponent : Int) : Decimal :=
  if mantissa = 0 then ⟨0, 0⟩
  else
    let r := rounding mantissa exponent
    r.search (leadingExponent r.value r.den) 17 1

end Binary64

end PageOutline
