import PageOutline.Text.Decoder
import PageOutline.Yaml.Error

/-!
# Sources of YAML text

A text comes in portions: two of 4096 characters to begin with and then one at a time, each only
when the reading of tokens has come to the end of what is there. So bytes that are no text, and
characters that YAML text may not hold, fail late in a long text: what stands in the portions
before them is read first.
-/

namespace PageOutline.Yaml

/-- The characters that YAML text may hold. -/
def isAllowed (c : Char) : Bool :=
  let n := c.toNat
  n == 0x09 || n == 0x0A || n == 0x0D || n == 0x85 || (0x20 ≤ n && n ≤ 0x7E) ||
    (0xA0 ≤ n && n ≤ 0xD7FF) || (0xE000 ≤ n && n ≤ 0xFFFD) || 0x10000 ≤ n

/-- A text, or the beginning of one and the failure that lies behind it. -/
structure Source where
  text : List Char
  failure? : Option YamlError

/-- The number of characters in a portion. -/
def portionLength : Nat := 4096

/-- The least number of bytes that are fetched at once. -/
def minFetch : Nat := 8192

/-- Bytes that are decoded as characters are asked for. -/
structure Supply where
  /-- The bytes that have not been fetched. -/
  bytes : List UInt8
  decoder : Text.Decoder
  /-- The characters that have been decoded but not asked for. -/
  ready : List Char
  /-- The numbers of bytes and characters of the last fetch. -/
  rate : Nat × Nat

namespace Supply

/-- The bytes of a file, of which none has been fetched. -/
def ofBytes (bytes : List UInt8) : Supply := ⟨bytes, .start, [], (0, 0)⟩

/-- How many bytes to fetch for some characters: as many as at the rate of the last fetch. -/
def fetchLength (s : Supply) (want : Nat) : Nat := max minFetch (s.rate.1 * want / s.rate.2)

/-- Takes some characters after others, or all that are left where there are fewer. Nothing comes
from bytes that are no text. The first argument bounds the number of fetches. -/
def take : Nat → (want : Nat) → List Char → Supply → Option (List Char × Supply)
  | 0, _, taken, s => some (taken, s)
  | n + 1, want, taken, s =>
    let now := s.ready.take want
    let s := { s with ready := s.ready.drop want }
    let want := want - now.length
    let taken := taken ++ now
    if want = 0 then some (taken, s)
    else
      let piece := s.bytes.take (s.fetchLength want)
      match s.decoder.decode piece.isEmpty piece with
      | none => none
      | some (chars, decoder) =>
        let rest := s.bytes.drop piece.length
        let s : Supply := ⟨rest, decoder, chars, (piece.length, chars.length)⟩
        if piece.isEmpty then some (taken ++ chars.take want, { s with ready := chars.drop want })
        else take n want taken s

/-- Takes a number of portions. -/
def portions (s : Supply) : Nat → Option (List Char × Supply)
  | 0 => some ([], s)
  | n + 1 =>
    match s.portions n with
    | none => none
    | some (taken, s) => take (s.bytes.length + 2) portionLength taken s

end Supply

namespace Source

/-- Reads on after some characters, so many portions next and one at a time after them. The first
argument bounds the number of steps. -/
def readOn : (fuel : Nat) → (count : Nat) → List Char → Supply → Source
  | 0, _, read, _ => ⟨read, none⟩
  | fuel + 1, count, read, supply =>
    match supply.portions count with
    | none => ⟨read, some .notText⟩
    | some (chars, supply) =>
      if !chars.all isAllowed then ⟨read, some .malformed⟩
      else if chars.length < count * portionLength then ⟨read ++ chars, none⟩
      else readOn fuel 1 (read ++ chars) supply

/-- The text that bytes hold. -/
def ofBytes (bytes : List UInt8) : Source :=
  readOn (bytes.length / portionLength + 2) 2 [] (.ofBytes bytes)

end Source

end PageOutline.Yaml
