import PageOutline.Yaml.Token
import PageOutline.Yaml.Source

/-!
# From text to tokens

A text is read from left to right. What follows a colon decides whether what stands before it was a
key, so the places where a key may have begun are remembered, one for each level of brackets, and
the tokens for a key are put in when its colon comes. Outside of brackets, indentation opens and
closes collections.
-/

namespace PageOutline.Yaml

/-- A place where a key may have begun. -/
structure PossibleKey where
  /-- How many tokens stand before it. -/
  token : Nat
  /-- Whether nothing but a key can stand there. -/
  required : Bool
  index : Nat
  line : Nat
  column : Nat

/-- A text that has been read up to a place. -/
structure Lexer where
  place : Place
  /-- The indentation of the innermost collection, −1 outside of all. -/
  indent : Int
  /-- The indentations of the collections around it. -/
  outer : List Int
  /-- How many brackets are open. -/
  flow : Nat
  keyAllowed : Bool
  keys : List (Nat × PossibleKey)
  /-- The tokens so far, last first. -/
  tokens : List Token
  /-- How many tokens there are so far. -/
  count : Nat

namespace Lexer

/-- Before the first character of a text. -/
def start (source : Source) : Lexer :=
  ⟨.start source.text source.failure?, -1, [], 0, true, [], [], 0⟩

/-- The longest key in characters. -/
def maxKeyLength : Nat := 1024

/-- Puts a token behind the others. -/
def push (l : Lexer) (t : Token) : Lexer :=
  { l with tokens := t :: l.tokens, count := l.count + 1 }

/-- Puts a token in after the first `position` ones. -/
def insertAt (l : Lexer) (position : Nat) (t : Token) : Lexer :=
  { l with tokens := l.tokens.insertIdx (l.count - position) t, count := l.count + 1 }

/-- Whether a key that began there has not ended by now: keys stay on one line and are short. -/
def isStale (l : Lexer) (k : PossibleKey) : Bool :=
  k.line != l.place.line || maxKeyLength < l.place.index - k.index

/-- Forgets the keys that have become too long. -/
def dropStale (l : Lexer) : Except YamlError Lexer :=
  if l.keys.any fun (_, k) => k.required && l.isStale k then .error .malformed
  else .ok { l with keys := l.keys.filter fun (_, k) => !l.isStale k }

/-- Forgets the possible key of this level of brackets. -/
def dropKey (l : Lexer) : Except YamlError Lexer :=
  match l.keys.lookup l.flow with
  | none => .ok l
  | some k =>
    if k.required then .error .malformed
    else .ok { l with keys := l.keys.filter fun e => e.1 != l.flow }

/-- Remembers that a key may begin here. -/
def saveKey (l : Lexer) : Except YamlError Lexer :=
  if l.keyAllowed then do
    let l ← l.dropKey
    let required := l.flow == 0 && l.indent == l.place.column
    let k : PossibleKey :=
      ⟨l.count, required, l.place.index, l.place.line, l.place.column⟩
    return { l with keys := (l.flow, k) :: l.keys }
  else .ok l

/-- Closes the collections that are indented deeper than a column. The list holds the indentations
around the innermost one. -/
def closeTo (column : Int) : List Int → Lexer → Lexer
  | [], l => l
  | o :: outer, l =>
    if column < l.indent then closeTo column outer { l.push .blockEnd with indent := o, outer }
    else l

/-- Closes the collections that end at a column; brackets leave indentation without a meaning. -/
def unwind (l : Lexer) (column : Int) : Lexer :=
  if l.flow ≠ 0 then l else closeTo column l.outer l

/-- Opens a collection at a column if it is indented deeper; its token goes in at a position. -/
def openAt (l : Lexer) (column position : Nat) (t : Token) : Lexer :=
  if l.indent < column then
    { l.insertAt position t with indent := column, outer := l.indent :: l.outer }
  else l

/-- Moves past blanks, comments and empty lines. -/
def skipGap : Nat → Place → Bool → Place × Bool
  | 0, p, newLine => (p, newLine)
  | n + 1, p, newLine =>
    let p := p.skipSpaces.skipComment
    if p.sees isBreak then skipGap n p.lineBreak.2 true else (p, newLine)

/-- Moves to the next token. A new line allows a key outside of brackets. -/
def toNextToken (l : Lexer) : Lexer :=
  let p := if l.place.index == 0 && l.place.sees isByteOrderMark then l.place.forward else l.place
  let (p, newLine) := skipGap (p.left + 1) p false
  { l with place := p, keyAllowed := l.keyAllowed || (newLine && l.flow == 0) }

/-- Adds a token and moves past its characters. -/
def take (l : Lexer) (t : Token) (length : Nat) : Lexer :=
  { l.push t with place := l.place.advance length }

/-- The end of the text. -/
def atEnd (l : Lexer) : Except YamlError Lexer := do
  let l ← (l.unwind (-1)).dropKey
  return l.push .streamEnd

/-- A directive. -/
def directive (l : Lexer) : Except YamlError Lexer := do
  let l ← (l.unwind (-1)).dropKey
  let (t, place) ← readDirective l.place
  return { l.push t with keyAllowed := false, place }

/-- A border of documents. -/
def border (l : Lexer) (t : Token) : Except YamlError Lexer := do
  let l ← (l.unwind (-1)).dropKey
  return { l with keyAllowed := false }.take t 3

/-- An opening bracket. -/
def openBracket (l : Lexer) (t : Token) : Except YamlError Lexer := do
  let l ← l.saveKey
  return { l with flow := l.flow + 1, keyAllowed := true }.take t 1

/-- A closing bracket. -/
def closeBracket (l : Lexer) (t : Token) : Except YamlError Lexer := do
  let l ← l.dropKey
  return { l with flow := l.flow - 1, keyAllowed := false }.take t 1

/-- A comma. -/
def comma (l : Lexer) : Except YamlError Lexer := do
  let l ← l.dropKey
  return { l with keyAllowed := true }.take .flowEntry 1

/-- The dash of an entry. -/
def dash (l : Lexer) : Except YamlError Lexer := do
  if l.flow == 0 && !l.keyAllowed then .error .malformed
  let l := if l.flow == 0 then l.openAt l.place.column l.count .blockSequenceStart else l
  let l ← l.dropKey
  return { l with keyAllowed := true }.take .blockEntry 1

/-- The mark of an explicit key. -/
def keyMark (l : Lexer) : Except YamlError Lexer := do
  if l.flow == 0 && !l.keyAllowed then .error .malformed
  let l := if l.flow == 0 then l.openAt l.place.column l.count .blockMappingStart else l
  let l ← l.dropKey
  return { l with keyAllowed := l.flow == 0 }.take .key 1

/-- The colon before a value. -/
def colon (l : Lexer) : Except YamlError Lexer := do
  match l.keys.lookup l.flow with
  | some k =>
    let l := { l.insertAt k.token .key with keys := l.keys.filter fun e => e.1 != l.flow }
    let l := if l.flow == 0 then l.openAt k.column k.token .blockMappingStart else l
    return { l with keyAllowed := false }.take .value 1
  | none =>
    if l.flow == 0 && !l.keyAllowed then .error .malformed
    let l := if l.flow == 0 then l.openAt l.place.column l.count .blockMappingStart else l
    let l ← { l with keyAllowed := l.flow == 0 }.dropKey
    return l.take .value 1

/-- An anchor or alias. -/
def named (l : Lexer) (make : String → Token) : Except YamlError Lexer := do
  let l ← l.saveKey
  let (name, place) ← readAnchor l.place
  return { l.push (make name) with keyAllowed := false, place }

/-- A tag. -/
def tag (l : Lexer) : Except YamlError Lexer := do
  let l ← l.saveKey
  let (t, place) ← readTag l.place
  return { l.push t with keyAllowed := false, place }

/-- A block scalar. -/
def block (l : Lexer) (folded : Bool) : Except YamlError Lexer := do
  let l ← l.dropKey
  let (s, place) ← blockScalar folded l.indent l.place
  let t := Token.scalar (.ofChars s) false
  return { l.push t with keyAllowed := true, place }

/-- A quoted scalar. -/
def quoted (l : Lexer) (double : Bool) : Except YamlError Lexer := do
  let l ← l.saveKey
  let (s, place) ← quotedScalar double l.place
  let t := Token.scalar s false
  return { l.push t with keyAllowed := false, place }

/-- A plain scalar. A key may begin after it if a line ended. -/
def plain (l : Lexer) : Except YamlError Lexer := do
  let l ← l.saveKey
  let (s, broke, place) := plainScalar (l.flow != 0) l.indent l.place
  let t := Token.scalar (.ofChars s) true
  return { l.push t with keyAllowed := broke, place }

/-- Reads the token at a character. -/
def readAt (l : Lexer) (c : Char) : Except YamlError Lexer :=
  let p := l.place
  let inFlow := l.flow != 0
  let gap := p.isGapAt 1
  let needsGap := c == '-' || (!inFlow && (c == '?' || c == ':'))
  if p.column == 0 && (c == '-' || c == '.') && p.cutsBorder then p.refuseWithin 4
  else if needsGap && p.endsWithin 2 then p.refuseWithin 2
  else if c == '%' && p.column == 0 then l.directive
  else if p.column == 0 && p.atBorder '-' then l.border .documentStart
  else if p.column == 0 && p.atBorder '.' then l.border .documentEnd
  else if c == '[' then l.openBracket .flowSequenceStart
  else if c == '\x7b' then l.openBracket .flowMappingStart
  else if c == ']' then l.closeBracket .flowSequenceEnd
  else if c == '\x7d' then l.closeBracket .flowMappingEnd
  else if c == ',' then l.comma
  else if c == '-' && gap then l.dash
  else if c == '?' && (inFlow || gap) then l.keyMark
  else if c == ':' && (inFlow || gap) then l.colon
  else if c == '*' then l.named .alias
  else if c == '&' then l.named .anchor
  else if c == '!' then l.tag
  else if c == '|' && !inFlow then l.block false
  else if c == '>' && !inFlow then l.block true
  else if c == '\'' then l.quoted false
  else if c == '"' then l.quoted true
  else if startsPlain inFlow p then l.plain
  else p.refuseWithin 2

/-- Reads one more token; nothing more once the end of the text is a token. Where the text breaks
off, a token that reaches its end is none. -/
def step (l : Lexer) : Except YamlError (Lexer × Bool) := do
  let l := l.toNextToken
  if l.place.breaksOff then l.place.refuse
  let l ← l.dropStale
  let l := l.unwind l.place.column
  match l.place.peek? with
  | none => return (← l.atEnd, true)
  | some c =>
    let l ← l.readAt c
    if l.place.breaksOff then l.place.refuse else return (l, false)

/-- The tokens before the first place that may yet turn out to begin a key, last first. Where the
text goes wrong further on, what stands at that place is not known. -/
def settled (l : Lexer) : List Token :=
  let undecided := l.keys.filter fun (_, k) => !l.isStale k
  l.tokens.drop (l.count - undecided.foldl (fun n (_, k) => min n k.token) l.count)

/-- Reads tokens, at most as many as the first argument says, and gives them last first. -/
def run : Nat → Lexer → List Token
  | 0, l => .broken .malformed :: l.tokens
  | n + 1, l =>
    match l.step with
    | .error e => .broken e :: l.settled
    | .ok (l, true) => l.tokens
    | .ok (l, false) => run n l

end Lexer

/-- The tokens of a text. -/
def Token.ofSource (source : Source) : List Token :=
  (Lexer.run (source.text.length + 2) (.start source)).reverse

end PageOutline.Yaml
