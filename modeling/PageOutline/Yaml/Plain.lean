import PageOutline.Yaml.Place

/-!
# Plain scalars

Text without quotes. It ends at a colon before a gap, at a comment, at a border of the document, at
less indentation or, inside brackets, at a mark of the collection. Characters are collected last
first.
-/

namespace PageOutline.Yaml

/-- Marks that end plain text inside brackets. -/
def isFlowMark (c : Char) : Bool :=
  c == ',' || c == '[' || c == ']' || c == '\x7b' || c == '\x7d'

/-- Marks that cannot start plain text. -/
def isIndicator (c : Char) : Bool :=
  isFlowMark c || c == '-' || c == '?' || c == ':' || c == '#' || c == '&' || c == '*' ||
    c == '!' || c == '|' || c == '>' || c == '\'' || c == '"' || c == '%' || c == '@' ||
    c.toNat == 0x60

/-- Whether plain text starts here. -/
def startsPlain (inFlow : Bool) (p : Place) : Bool :=
  match p.peek? with
  | none => false
  | some c =>
    !(c == ' ' || c == '\t' || isBreak c || isIndicator c) ||
      (!p.isGapAt 1 && (c == '-' || (!inFlow && (c == '?' || c == ':'))))

/-- Whether a colon ends plain text: a gap follows it or, inside brackets, a mark. -/
def endsAtColon (inFlow : Bool) (after : List Char) : Bool :=
  after.head?.all fun c => c == ' ' || c == '\t' || isBreak c || (inFlow && isFlowMark c)

/-- The length of the word that starts here. -/
def plainLength (inFlow : Bool) : List Char → Nat
  | [] => 0
  | c :: rest =>
    if c == ' ' || c == '\t' || isBreak c || (c == ':' && endsAtColon inFlow rest) ||
        (inFlow && (isFlowMark c || c == '?')) then 0
    else plainLength inFlow rest + 1

/-- The end of the text, where it breaks off and has been looked at beyond. -/
def Place.atBreakOff (p : Place) : Place := p.advance p.left

/-- The blanks and breaks after the first break of a gap; nothing at a border of the document. -/
def plainBreaks : Nat → List Char → Place → Option (List Char) × Place
  | 0, breaks, p => (some breaks, p)
  | n + 1, breaks, p =>
    if p.peek? == some ' ' then plainBreaks n breaks p.forward
    else if p.sees isBreak then
      let (b, p) := p.lineBreak
      if p.cutsBorder then (none, p.atBreakOff)
      else if p.atAnyBorder then (none, p)
      else plainBreaks n (b ++ breaks) p
    else (some breaks, p)

/-- What a gap between words stands for, nothing if the text ends with it, and whether a line ended
in it. -/
def plainGap (p : Place) : List Char × Bool × Place :=
  let (blanks, p) := p.takeWhile (· == ' ')
  if p.sees isBreak then
    let (first, p) := p.lineBreak
    if p.cutsBorder then ([], true, p.atBreakOff)
    else if p.atAnyBorder then ([], true, p)
    else
      match plainBreaks (p.left + 1) [] p with
      | (none, p) => ([], true, p)
      | (some breaks, p) =>
        let folded := if first != ['\n'] then first else if breaks.isEmpty then [' '] else []
        (breaks ++ folded, true, p)
  else (blanks, false, p)

/-- Words and gaps up to the end of plain text. The flag tells whether a line ended after the last
word. -/
def plainWords (inFlow : Bool) (indent : Int) :
    Nat → List Char → List Char → Bool → Place → List Char × Bool × Place
  | 0, chars, _, broke, p => (chars, broke, p)
  | n + 1, chars, gap, broke, p =>
    if p.peek? == some '#' then (chars, broke, p)
    else
      let length := plainLength inFlow p.rest
      let after := p.advance length
      if after.peek? == some ':' && after.endsWithin 2 then (chars, broke, after.atBreakOff)
      else if length = 0 then (chars, broke, p)
      else
        let chars := (p.rest.take length).reverse ++ gap ++ chars
        let (gap, broke, p) := plainGap after
        if gap.isEmpty || p.peek? == some '#' || (!inFlow && p.column < indent) then
          (chars, broke, p)
        else plainWords inFlow indent n chars gap broke p

/-- The text of the plain scalar that starts here, and whether a line ended after it. -/
def plainScalar (inFlow : Bool) (outer : Int) (p : Place) : List Char × Bool × Place :=
  let (chars, broke, p) := plainWords inFlow (outer + 1) (p.left + 1) [] [] false p
  (chars.reverse, broke, p)

end PageOutline.Yaml
