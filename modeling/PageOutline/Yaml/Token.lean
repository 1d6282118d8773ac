import PageOutline.Yaml.Quoted
import PageOutline.Yaml.Block
import PageOutline.Yaml.Plain
import PageOutline.Schema.Scalar
import PageOutline.Text.Numeral

/-!
# Tokens

The words of YAML text: borders of documents, starts and ends of collections, marks of entries, keys
and values, properties of nodes, and scalars. Indentation becomes tokens too, and the text of a
token that goes wrong becomes a token that fits nowhere. Here are the tokens and the readers of
properties and directives.
-/

namespace PageOutline.Yaml

/-- A word of YAML text. -/
inductive Token where
  | streamEnd
  | version (major : Nat)
  | tagHandle (handle stem : String)
  | otherDirective
  | documentStart
  | documentEnd
  | blockSequenceStart
  | blockMappingStart
  | blockEnd
  | flowSequenceStart
  | flowSequenceEnd
  | flowMappingStart
  | flowMappingEnd
  | blockEntry
  | flowEntry
  | key
  | value
  | alias (name : String)
  | anchor (name : String)
  | tag (handle? : Option String) (suffix : String)
  | scalar (text : Wording) (plain : Bool)
  | broken (e : YamlError)
deriving DecidableEq

/-- Characters that may stand in a tag. -/
def isTagChar (c : Char) : Bool :=
  c.isAlphanum || "-;/?:@&=+$,_.!~*'()[]%".toList.contains c

/-- The bytes of a run of percent escapes. -/
def percentBytes : Nat → Place → Except YamlError (List UInt8 × Place)
  | 0, p => .ok ([], p)
  | n + 1, p =>
    match p.rest with
    | '%' :: a :: b :: _ =>
      match Text.hexDigit? a, Text.hexDigit? b with
      | some x, some y => do
        let (bytes, p) ← percentBytes n (p.advance 3)
        return ((16 * x + y).toUInt8 :: bytes, p)
      | _, _ => .error .malformed
    | ['%', a] => if (Text.hexDigit? a).isSome then p.refuseWithin 3 else .error .malformed
    | ['%'] => p.refuseWithin 2
    | _ => .ok ([], p)

/-- The characters of a tag, with percent escapes replaced by what they stand for. -/
def tagChars : Nat → Place → Except YamlError (List Char × Place)
  | 0, p => .ok ([], p)
  | n + 1, p =>
    match p.peek? with
    | none => .ok ([], p)
    | some c =>
      if c == '%' then do
        let (bytes, p) ← percentBytes (p.left + 1) p
        match Schema.utf8? bytes with
        | none => .error .malformed
        | some s =>
          let (more, p) ← tagChars n p
          return (s.toList ++ more, p)
      else if isTagChar c then do
        let (more, p) ← tagChars n p.forward
        return (c :: more, p)
      else .ok ([], p)

/-- A tag's text, which has at least one character. -/
def tagText (p : Place) : Except YamlError (String × Place) := do
  let (s, after) ← tagChars (p.left + 1) p
  if after.index = p.index then p.refuse else return (String.ofList s, after)

/-- A tag handle: an exclamation mark alone, with a blank after it, or a name between two. -/
def tagHandleText (p : Place) : Except YamlError (String × Place) :=
  if p.peek? != some '!' then p.refuse
  else
    let first := p.forward
    if first.peek? == some ' ' then .ok ("!", first)
    else
      let (name, after) := first.takeWhile isNameChar
      if after.peek? == some '!' then .ok (String.ofList ('!' :: name ++ ['!']), after.forward)
      else after.refuse

/-- The tag that starts here. -/
def readTag (p : Place) : Except YamlError (Token × Place) := do
  let finish (t : Token) (p : Place) : Except YamlError (Token × Place) :=
    if p.atSpace then .ok (t, p) else .error .malformed
  if p.peekAt? 1 == some '<' then
    let (s, p) ← tagText (p.advance 2)
    if p.peek? == some '>' then finish (.tag none s) p.forward else p.refuse
  else if p.isGapAt 1 then finish (.tag none "!") p.forward
  else
    let word := (p.rest.drop 1).takeWhile fun c => c != ' ' && !isBreak c
    if !word.contains '!' && p.endsWithin (word.length + 2) then p.refuseWithin (word.length + 2)
    if word.contains '!' then
      let (handle, p) ← tagHandleText p
      let (s, p) ← tagText p
      finish (.tag (some handle) s) p
    else
      let (s, p) ← tagText p.forward
      finish (.tag (some "!") s) p

/-- The name after the mark of an anchor or alias. -/
def readAnchor (p : Place) : Except YamlError (String × Place) :=
  let (name, after) := p.forward.takeWhile isNameChar
  let ends := after.isGapAt 0 ||
    after.sees fun c => "?:,]\x7d%@".toList.contains c || c.toNat == 0x60
  if name.isEmpty || !ends then after.refuse else .ok (String.ofList name, after)

/-- A number in a version, leading zeros counted among its digits. -/
def versionNumber (p : Place) : Except YamlError (Nat × Place) :=
  let (digits, after) := p.takeWhile fun c => (Text.asciiDigit? c).isSome
  if digits.isEmpty then p.refuse
  else if after.breaksOff then after.refuse
  else if Text.maxDigits < digits.length then .error .noSuchValue
  else .ok (Text.ofDigits 10 (digits.filterMap Text.asciiDigit?), after)

/-- The directive that starts here, with the rest of its line. -/
def readDirective (p : Place) : Except YamlError (Token × Place) := do
  let (name, after) := p.forward.takeWhile isNameChar
  if name.isEmpty || !after.atSpace then after.refuse
  let (t, p) ←
    if name == "YAML".toList then do
      let (major, p) ← versionNumber after.skipSpaces
      if p.peek? != some '.' then p.refuse
      let (_, p) ← versionNumber p.forward
      if !p.atSpace then .error .malformed
      pure (Token.version major, p)
    else if name == "TAG".toList then do
      let (handle, p) ← tagHandleText after.skipSpaces
      if p.peek? != some ' ' then p.refuse
      let (stem, p) ← tagText p.skipSpaces
      if !p.atSpace then .error .malformed
      pure (Token.tagHandle handle stem, p)
    else pure (Token.otherDirective, (after.takeWhile fun c => !isBreak c).2)
  match p.restOfLine? with
  | some p => return (t, p)
  | none => .error .malformed

end PageOutline.Yaml
