/-!
# Reading UTF-8 in pieces

Bytes that come piece by piece are decoded as far as they go; the start of a character whose end is
missing waits for the next piece. Every line ends in a newline alone: a return, with or without a
newline behind it, becomes one.
-/

namespace PageOutline.Text

/-- How a run of bytes starts. -/
inductive Utf8Start where
  | char (c : Char) (rest : List UInt8)
  /-- The bytes may yet become a character when more follow. -/
  | unfinished
  | invalid

/-- The number of bytes after the first one of a character, by the first one, and the least and
greatest second byte. -/
def utf8Shape? (b : UInt8) : Option (Nat × UInt8 × UInt8) :=
  if b < 0x80 then some (0, 0, 0)
  else if b < 0xC2 then none
  else if b < 0xE0 then some (1, 0x80, 0xBF)
  else if b = 0xE0 then some (2, 0xA0, 0xBF)
  else if b = 0xED then some (2, 0x80, 0x9F)
  else if b < 0xF0 then some (2, 0x80, 0xBF)
  else if b = 0xF0 then some (3, 0x90, 0xBF)
  else if b < 0xF4 then some (3, 0x80, 0xBF)
  else if b = 0xF4 then some (3, 0x80, 0x8F)
  else none

/-- Whether bytes may follow the first byte of a character. -/
def areContinuation (least greatest : UInt8) : List UInt8 → Bool
  | [] => true
  | b :: bs => least ≤ b && b ≤ greatest && bs.all fun c => 0x80 ≤ c && c ≤ 0xBF

/-- The code point of a first byte with `count` bytes after it. -/
def utf8Value (first : UInt8) (count : Nat) (others : List UInt8) : Nat :=
  let high := if count = 0 then first.toNat else first.toNat % Nat.pow 2 (6 - count)
  others.foldl (fun n b => n * 64 + b.toNat % 64) high

/-- The first character of a run of bytes. -/
def utf8Start : List UInt8 → Utf8Start
  | [] => .unfinished
  | b :: bs =>
    match utf8Shape? b with
    | none => .invalid
    | some (count, least, greatest) =>
      let others := bs.take count
      if !areContinuation least greatest others then .invalid
      else if others.length < count then .unfinished
      else .char (Char.ofNat (utf8Value b count others)) (bs.drop count)

/-- The characters of a run of bytes, last first, and the bytes of an unfinished one; nothing if
the bytes are no UTF-8. The first argument bounds the number of characters. -/
def decodeRun : Nat → List Char → List UInt8 → Option (List Char × List UInt8)
  | 0, chars, bytes => some (chars, bytes)
  | n + 1, chars, bytes =>
    match bytes, utf8Start bytes with
    | [], _ => some (chars, [])
    | _, .char c rest => decodeRun n (c :: chars) rest
    | bytes, .unfinished => some (chars, bytes)
    | _, .invalid => none

/-- Every line ends in a newline alone. -/
def unifyNewlines : List Char → List Char
  | [] => []
  | '\r' :: '\n' :: rest => '\n' :: unifyNewlines rest
  | c :: rest => (if c = '\r' then '\n' else c) :: unifyNewlines rest

/-- What waits for the next piece: the bytes of an unfinished character, and a return whose newline
may still come. -/
structure Decoder where
  pending : List UInt8
  heldReturn : Bool

namespace Decoder

/-- Before the first piece nothing waits. -/
def start : Decoder := ⟨[], false⟩

/-- Decodes one more piece. After the last one nothing may wait. -/
def decode (d : Decoder) (last : Bool) (piece : List UInt8) : Option (List Char × Decoder) :=
  let bytes := d.pending ++ piece
  match decodeRun bytes.length [] bytes with
  | none => none
  | some (reversed, pending) =>
    if last && !pending.isEmpty then none
    else
      let freed := d.heldReturn && (last || !reversed.isEmpty)
      let chars := if freed then '\r' :: reversed.reverse else reversed.reverse
      if !last && chars.getLast? == some '\r' then
        some (unifyNewlines chars.dropLast, ⟨pending, true⟩)
      else some (unifyNewlines chars, ⟨pending, d.heldReturn && !freed⟩)

end Decoder

end PageOutline.Text
