import PageOutline.Text.Base64
import PageOutline.Text.Numeral
import PageOutline.Yaml.Error
import PageOutline.Yaml.Tag
import PageOutline.Yaml.Wording

/-!
# Scalars

The value of a scalar by its tag. A tag that was written out may stand before text of any form, so
each kind says how it fails.
-/

namespace PageOutline.Yaml

/-- A text without its underscores. -/
def dropUnderscores (s : String) : List Char := s.toList.filter (· != '_')

/-- A whole number in base sixty: the sum of its places, the last of which counts ones. -/
def ofPlaces (places : List Int) : Int := places.foldl (fun n place => n * 60 + place) 0

/-- A whole number. `0b` announces base two, `0x` base sixteen, another leading zero base eight,
and colons separate the places of base sixty. -/
def intValue (text : String) : Except YamlError Int :=
  let (negative, s) := Text.splitSign (dropUnderscores text)
  let magnitude? : Option Int :=
    match s with
    | ['0'] => some 0
    | '0' :: 'b' :: rest => Text.markedInteger? 2 'b' rest
    | '0' :: 'x' :: rest => Text.markedInteger? 16 'x' rest
    | '0' :: _ => Text.markedInteger? 8 'o' s
    | _ =>
      if s.contains ':' then
        ((splitColons s).mapM fun part => Text.decimalInteger? (String.ofList part)).map ofPlaces
      else Text.decimalInteger? (String.ofList s)
  if s.isEmpty then .error .emptyNumber
  else
    match magnitude? with
    | some i => .ok (if negative then -i else i)
    | none => .error .noSuchValue

/-- The sign of a decimal, and the rest of it in lower case. -/
def decimalWord (text : String) : Bool × String :=
  let (negative, s) := Text.splitSign ((dropUnderscores text).map Char.toLower)
  (negative, String.ofList s)

/-- Whether a text is the word for the value that is no number. -/
def isNanWord (text : String) : Bool := (decimalWord text).2 == ".nan"

/-- A decimal in base sixty. Places are added from the last one on, each after it has been
multiplied by its weight, and a weight has to be a number of its own. -/
def sumPlaces (places : List Binary64) : Except YamlError Binary64 :=
  places.reverse.zipIdx.foldlM (fun sum (place, i) =>
    match Binary64.ofInt (Nat.pow 60 i) with
    | .infinity _ => .error .tooGreat
    | weight => .ok (sum.add (place.mul weight))) (Binary64.zero false)

/-- A decimal; colons separate the places of base sixty. -/
def floatValue (text : String) : Except YamlError Binary64 :=
  let (negative, word) := decimalWord text
  let number (s : String) : Except YamlError Binary64 :=
    match Binary64.ofText? s with
    | some x => .ok x
    | none => .error .noSuchValue
  let magnitude : Except YamlError Binary64 :=
    if word == ".inf" then .ok (.infinity false)
    else if word == ".nan" then .ok .nan
    else if word.toList.contains ':' then
      ((splitColons word.toList).mapM fun part => number (String.ofList part)) >>= sumPlaces
    else number word
  if (dropUnderscores text).isEmpty then .error .emptyNumber
  else magnitude.map fun x => if negative then x.neg else x

/-- A truth value, in any case of letters. -/
def flagValue (text : String) : Except YamlError Bool :=
  let word := text.toLower
  if trueWords.contains word then .ok true
  else if falseWords.contains word then .ok false
  else .error .unknownFlag

/-- Microseconds from the digits after the point of a second; digits beyond the sixth are
dropped. -/
def microsecondsOf (fraction : List Nat) : Nat :=
  Text.ofDigits 10 ((fraction ++ List.replicate 6 0).take 6)

/-- A day or a time. -/
def timeValue (text : String) : Except YamlError Value :=
  match timeForm? text.toList with
  | none => .error .unknownTime
  | some t =>
    match Date.ofParts? t.year t.month t.day, t.clock? with
    | none, _ => .error .noSuchValue
    | some d, none => .ok (.date d)
    | some d, some (hour, minute, second) =>
      match Instant.ofParts? d hour minute second (microsecondsOf t.fraction) t.offset? with
      | some i => .ok (.instant i)
      | none => .error .noSuchValue

/-- Bytes in base 64. -/
def bytesValue (text : String) : Except YamlError (List UInt8) :=
  match Text.base64Bytes? text.toList with
  | some b => if text.toList.all (·.toNat < 128) then .ok b else .error .malformed
  | none => .error .malformed

/-- The value of a scalar. Tags of collections and unknown tags have none. -/
def scalarValue (tag : Tag) (w : Wording) : Except YamlError Value :=
  let text := w.shown
  match tag with
  | .null => .ok .null
  | .bool => (flagValue text).map .bool
  | .int => (intValue text).map .int
  | .float => (floatValue text).map .float
  | .binary => (bytesValue text).map .bytes
  | .timestamp => timeValue text
  | .str => .ok w.value
  | _ => .error .malformed

end PageOutline.Yaml
