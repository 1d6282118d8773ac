import PageOutline.Yaml.Place
import PageOutline.Text.Digit

/-!
# Block scalars

Text that is set off by its indentation, either literal or folded. The header may say how the last
line break is treated and how far the text is indented; otherwise the first lines decide.
Characters are collected last first.
-/

namespace PageOutline.Yaml

/-- What becomes of the line breaks at the end: all but one are dropped, all are, or none. -/
inductive Chomping where
  | clip
  | strip
  | keep
deriving DecidableEq

/-- The header after its mark: chomping and indentation in either order. -/
def blockHeader? (p : Place) : Option (Chomping × Option Nat × Place) :=
  let chomping? (p : Place) : Option Chomping :=
    if p.peek? == some '+' then some .keep else if p.peek? == some '-' then some .strip else none
  let increment? (p : Place) : Option Nat := p.peek?.bind Text.asciiDigit?
  let finish (c : Chomping) (i? : Option Nat) (p : Place) :
      Option (Chomping × Option Nat × Place) :=
    if i? == some 0 || !p.atSpace then none else some (c, i?, p)
  match chomping? p with
  | some c =>
    let p := p.forward
    match increment? p with
    | some i => finish c (some i) p.forward
    | none => finish c none p
  | none =>
    match increment? p with
    | some i =>
      let p := p.forward
      match chomping? p with
      | some c => finish c (some i) p.forward
      | none => finish .clip (some i) p
    | none => finish .clip none p

/-- The blank lines before the text, and the deepest indentation among them. -/
def leadingLines : Nat → List Char → Nat → Place → List Char × Nat × Place
  | 0, breaks, deepest, p => (breaks, deepest, p)
  | n + 1, breaks, deepest, p =>
    if p.sees isBreak then
      let (b, p) := p.lineBreak
      leadingLines n (b ++ breaks) deepest p
    else if p.peek? == some ' ' then
      let p := p.forward
      leadingLines n breaks (max deepest p.column) p
    else (breaks, deepest, p)

/-- Moves past blanks up to a column. -/
def indentTo (column : Nat) : Nat → Place → Place
  | 0, p => p
  | n + 1, p =>
    if p.column < column && p.peek? == some ' ' then indentTo column n p.forward else p

/-- The blank lines between lines of the text. -/
def blankLines (indent : Nat) : Nat → List Char → Place → List Char × Place
  | 0, breaks, p => (breaks, p)
  | n + 1, breaks, p =>
    let p := indentTo indent indent p
    if p.sees isBreak then
      let (b, p) := p.lineBreak
      blankLines indent n (b ++ breaks) p
    else (breaks, p)

/-- The lines of the text. `breaks` are the blank lines before the line that comes next; the answer
gives the text, the break after its last line and the blank lines behind it. -/
def blockLines (folded : Bool) (indent : Nat) :
    Nat → List Char → List Char → Place → List Char × List Char × List Char × Place
  | 0, chars, breaks, p => (chars, [], breaks, p)
  | n + 1, chars, breaks, p =>
    let isText (p : Place) : Bool := !(p.sees fun c => c == ' ' || c == '\t')
    let startsWithText := isText p
    let (line, p) := p.takeWhile fun c => !isBreak c
    let chars := line.reverse ++ breaks ++ chars
    let (lineBreak, p) := p.lineBreak
    let (breaks, p) := blankLines indent (p.left + 1) [] p
    if p.column == indent && !p.rest.isEmpty then
      let joined :=
        if folded && lineBreak == ['\n'] && startsWithText && isText p then
          if breaks.isEmpty then ' ' :: chars else chars
        else lineBreak ++ chars
      blockLines folded indent n joined breaks p
    else (chars, lineBreak, breaks, p)

/-- The text of a block scalar whose mark is here, inside a collection that is indented by
`outer` (−1 outside of all). -/
def blockScalar (folded : Bool) (outer : Int) (p : Place) :
    Except YamlError (List Char × Place) :=
  match blockHeader? p.forward with
  | none => .error .malformed
  | some (chomping, increment?, p) =>
    match p.restOfLine? with
    | none => .error .malformed
    | some p =>
      let least := (max (outer + 1) 1).toNat
      let (breaks, indent, p) :=
        match increment? with
        | some i =>
          let indent := least + i - 1
          let (breaks, p) := blankLines indent (p.left + 1) [] p
          (breaks, indent, p)
        | none =>
          let (breaks, deepest, p) := leadingLines (p.left + 1) [] 0 p
          (breaks, max least deepest, p)
      let (chars, lineBreak, breaks, p) :=
        if p.column == indent && !p.rest.isEmpty then
          blockLines folded indent (p.left + 1) [] breaks p
        else ([], [], breaks, p)
      let chars := if chomping == .strip then chars else lineBreak ++ chars
      let chars := if chomping == .keep then breaks ++ chars else chars
      .ok (chars.reverse, p)

end PageOutline.Yaml
