/-!
# Base 64

Reading bytes from text in base 64. Characters of no value are passed over; padding ends the text
where it completes a group of four.
-/

namespace PageOutline.Text

/-- The value of a character in base 64. -/
def sextet? (c : Char) : Option Nat :=
  if c.isUpper then some (c.toNat - 'A'.toNat)
  else if c.isLower then some (c.toNat - 'a'.toNat + 26)
  else if c.isDigit then some (c.toNat - '0'.toNat + 52)
  else if c = '+' then some 62
  else if c = '/' then some 63
  else none

/-- The values that a text writes, or nothing where it ends within a group. `filled` counts the
values of the group read so far and `pads` the padding since the last of them. -/
def sextets? : (filled pads : Nat) → List Char → Option (List Nat)
  | filled, _, [] => if filled = 0 then some [] else none
  | filled, pads, c :: s =>
    if c = '=' then
      if 2 ≤ filled ∧ 4 ≤ filled + pads + 1 then some []
      else sextets? filled (if 2 ≤ filled then pads + 1 else pads) s
    else
      match sextet? c with
      | some n => (sextets? ((filled + 1) % 4) 0 s).map (n :: ·)
      | none => sextets? filled pads s

/-- The bytes that values of six bits pack; bits that fill no byte are dropped. -/
def packSextets : List Nat → List UInt8
  | a :: b :: c :: d :: rest =>
    (a * 4 + b / 16).toUInt8 :: (b % 16 * 16 + c / 4).toUInt8 :: (c % 4 * 64 + d).toUInt8 ::
      packSextets rest
  | [a, b, c] => [(a * 4 + b / 16).toUInt8, (b % 16 * 16 + c / 4).toUInt8]
  | [a, b] => [(a * 4 + b / 16).toUInt8]
  | _ => []

/-- The bytes that a text in base 64 writes. -/
def base64Bytes? (s : List Char) : Option (List UInt8) := (sextets? 0 0 s).map packSextets

end PageOutline.Text
