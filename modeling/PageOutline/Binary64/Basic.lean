/-!
# Double-precision numbers

Numbers with 53 significant bits, kept decoded: a finite one is its sign, its mantissa and a power
of two, in the one form that `IsCanonical` admits. All arithmetic is exact on ratios of natural
numbers and rounds once, to nearest with ties to even; what does not fit becomes an infinity.
-/

namespace PageOutline

/-- The forms of a finite number `mantissa * 2 ^ exponent`: all 53 bits are used, or the exponent is
the least one. So each value has one form for each sign. -/
def Binary64.IsCanonical (mantissa : Nat) (exponent : Int) : Prop :=
  mantissa < Nat.pow 2 53 ∧ -1074 ≤ exponent ∧ exponent ≤ 971 ∧
    (Nat.pow 2 52 ≤ mantissa ∨ exponent = -1074)

instance (mantissa : Nat) (exponent : Int) :
    Decidable (Binary64.IsCanonical mantissa exponent) := by
  unfold Binary64.IsCanonical
  infer_instance

/-- A double-precision number, with both zeros, both infinities and one NaN. -/
inductive Binary64 where
  | finite (negative : Bool) (mantissa : Nat) (exponent : Int)
      (canonical : Binary64.IsCanonical mantissa exponent)
  | infinity (negative : Bool)
  | nan
deriving DecidableEq

namespace Binary64

/-- The zero of a sign. -/
def zero (negative : Bool) : Binary64 :=
  .finite negative 0 (-1074) (by decide)

instance : Inhabited Binary64 := ⟨zero false⟩

/-- A mantissa and exponent that do not fit overflow to the infinity of the sign. -/
def ofParts (negative : Bool) (mantissa : Nat) (exponent : Int) : Binary64 :=
  if h : IsCanonical mantissa exponent then .finite negative mantissa exponent h
  else .infinity negative

/-- The natural number nearest to a ratio, an exact half going to the even neighbour. -/
def roundHalfEven (num den : Nat) : Nat :=
  if den < 2 * (num % den) ∨ (2 * (num % den) = den ∧ num / den % 2 = 1) then num / den + 1
  else num / den

/-- A ratio times a power of two, as a ratio. -/
def scaleRatio (num den : Nat) (power : Int) : Nat × Nat :=
  if 0 ≤ power then (num <<< power.toNat, den) else (num, den <<< (-power).toNat)

/-- The double nearest to the ratio of two natural numbers, the second of them positive. -/
def ofRatio (negative : Bool) (num den : Nat) : Binary64 :=
  if num = 0 then zero negative
  else
    -- the quotient lies between two powers of two, so the exponent is this one or one less
    let guess : Int := (num.log2 : Int) - den.log2 - 52
    let (n, d) := scaleRatio num den (-guess)
    let exponent := max (if n < d <<< 52 then guess - 1 else guess) (-1074)
    let (n, d) := scaleRatio num den (-exponent)
    let mantissa := roundHalfEven n d
    if mantissa = Nat.pow 2 53 then ofParts negative (Nat.pow 2 52) (exponent + 1)
    else ofParts negative mantissa exponent

/-- The double nearest to an integer. -/
def ofInt (i : Int) : Binary64 :=
  ofRatio (i < 0) i.natAbs 1

/-- The magnitude of a finite number as a ratio with a positive denominator. -/
def magnitude (mantissa : Nat) (exponent : Int) : Nat × Nat :=
  scaleRatio mantissa 1 exponent

/-- The value of a finite number as a ratio with a positive denominator; `none` for infinities and
NaN. -/
def toRatio? : Binary64 → Option (Int × Nat)
  | .finite negative mantissa exponent _ =>
    let (num, den) := magnitude mantissa exponent
    some (if negative then -(num : Int) else num, den)
  | .infinity _ => none
  | .nan => none

/-- Numeric equality: the zeros are equal, and NaN equals nothing. -/
def sameValue : Binary64 → Binary64 → Bool
  | .infinity a, .infinity b => a == b
  | x, y =>
    match x.toRatio?, y.toRatio? with
    | some (n, d), some (m, e) => n * e == m * d
    | _, _ => false

/-- Whether the number is exactly the integer. -/
def isInt (x : Binary64) (i : Int) : Bool :=
  match x.toRatio? with
  | some (n, d) => n == i * d
  | none => false

/-- The integer that a finite number is, when it has no fraction. -/
def toInt? (x : Binary64) : Option Int :=
  match x.toRatio? with
  | some (n, d) => if n.tmod d = 0 then some (n.tdiv d) else none
  | none => none

/-- The integer part of a finite number, cut off toward zero. -/
def truncate? (x : Binary64) : Option Int :=
  x.toRatio?.map fun (n, d) => n.tdiv d

/-- Changes the sign. -/
def neg : Binary64 → Binary64
  | .finite negative mantissa exponent h => .finite (!negative) mantissa exponent h
  | .infinity negative => .infinity (!negative)
  | .nan => .nan

/-- The rounded sum. A sum of opposite values is the positive zero. -/
def add : Binary64 → Binary64 → Binary64
  | .infinity a, .infinity b => if a = b then .infinity a else .nan
  | .infinity a, .finite .. => .infinity a
  | .finite .., .infinity b => .infinity b
  | x, y =>
    match x.toRatio?, y.toRatio? with
    | some (n, d), some (m, e) =>
      let total := n * e + m * d
      ofRatio (total < 0) total.natAbs (d * e)
    | _, _ => .nan

/-- The rounded product. An infinity times zero is NaN. -/
def mul : Binary64 → Binary64 → Binary64
  | .finite a m e _, .finite b n f _ =>
    let (num, den) := scaleRatio (m * n) 1 (e + f)
    ofRatio (a != b) num den
  | .infinity a, .infinity b => .infinity (a != b)
  | .infinity a, .finite b n _ _ => if n = 0 then .nan else .infinity (a != b)
  | .finite a m _ _, .infinity b => if m = 0 then .nan else .infinity (a != b)
  | _, _ => .nan

end Binary64

end PageOutline
