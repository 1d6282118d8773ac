import PageOutline.Yaml.Error

/-!
# Places in YAML text

A place is what is left of a text together with the line and column reached. A text may break off:
then whatever looks past its end fails. Line breaks are the newline, the next-line control and the
two separators of Unicode; carriage returns count too where they still occur.
-/

namespace PageOutline.Yaml

/-- Line breaks. -/
def isBreak (c : Char) : Bool :=
  c == '\n' || c == '\r' || c.toNat == 0x85 || c.toNat == 0x2028 || c.toNat == 0x2029

/-- The mark that may stand before the first character. -/
def isByteOrderMark (c : Char) : Bool := c.toNat == 0xFEFF

/-- Letters and digits of ASCII, the dash and the underscore. -/
def isNameChar (c : Char) : Bool := c.isAlphanum || c == '-' || c == '_'

/-- A place in a text. -/
structure Place where
  rest : List Char
  /-- How many characters are left. -/
  left : Nat
  index : Nat
  line : Nat
  column : Nat
  /-- The failure of looking past the end, if the text breaks off there. -/
  beyond? : Option YamlError
  left_eq : left = rest.length

namespace Place

/-- The beginning of a text, which may break off. -/
def start (s : List Char) (beyond? : Option YamlError) : Place :=
  ⟨s, s.length, 0, 0, 0, beyond?, rfl⟩

/-- Whether the text breaks off before `n` more characters. -/
def endsWithin (p : Place) (n : Nat) : Bool := p.left < n && p.beyond?.isSome

/-- Whether the text breaks off here. -/
def breaksOff (p : Place) : Bool := p.endsWithin 1

/-- The failure of finding nothing that fits when `n` characters are looked at. -/
def refuseWithin {α : Type} (p : Place) (n : Nat) : Except YamlError α :=
  .error (if p.left < n then p.beyond?.getD .malformed else .malformed)

/-- The failure of finding nothing that fits here. -/
def refuse {α : Type} (p : Place) : Except YamlError α := p.refuseWithin 1

/-- The character that comes next; nothing at the end. -/
def peek? (p : Place) : Option Char := p.rest.head?

/-- The character after `n` others. -/
def peekAt? (p : Place) (n : Nat) : Option Char := p.rest[n]?

/-- Moves past one character. A return before a newline leaves the line to the newline. -/
def forward (p : Place) : Place :=
  match h : p.rest with
  | [] => p
  | c :: rest =>
    have hleft : p.left - 1 = rest.length := by rw [p.left_eq, h, List.length_cons]; rfl
    if isBreak c && !(c == '\r' && rest.head? == some '\n') then
      ⟨rest, p.left - 1, p.index + 1, p.line + 1, 0, p.beyond?, hleft⟩
    else if isByteOrderMark c then
      ⟨rest, p.left - 1, p.index + 1, p.line, p.column, p.beyond?, hleft⟩
    else ⟨rest, p.left - 1, p.index + 1, p.line, p.column + 1, p.beyond?, hleft⟩

/-- Moves past some characters. -/
def advance : Nat → Place → Place
  | 0, p => p
  | n + 1, p => advance n p.forward

/-- Moves past the longest run of characters of a class. -/
def takeWhile (p : Place) (q : Char → Bool) : List Char × Place :=
  let run := p.rest.takeWhile q
  (run, p.advance run.length)

/-- Whether the next character is of a class. -/
def sees (p : Place) (q : Char → Bool) : Bool := p.peek?.any q

/-- Whether a line ends here. -/
def atLineEnd (p : Place) : Bool := p.peek?.all isBreak

/-- Whether the character after `n` others is no part of a word: a blank, a tab, a line break or the
end of the text. -/
def isGapAt (p : Place) (n : Nat) : Bool :=
  (p.peekAt? n).all fun c => c == ' ' || c == '\t' || isBreak c

/-- Whether a blank, a line break or the end of the text is next; a tab is not. -/
def atSpace (p : Place) : Bool := p.peek?.all fun c => c == ' ' || isBreak c

/-- Whether three equal marks stand here as a document's border. -/
def atBorder (p : Place) (mark : Char) : Bool :=
  p.rest.take 3 == [mark, mark, mark] && p.isGapAt 3

/-- Whether the text breaks off before it is known whether a border of a document stands here. -/
def cutsBorder (p : Place) : Bool :=
  p.endsWithin 3 || (p.endsWithin 4 && (p.rest == "---".toList || p.rest == "...".toList))

/-- Whether any border of a document stands here. -/
def atAnyBorder (p : Place) : Bool := p.atBorder '-' || p.atBorder '.'

/-- Moves past one line break and gives the characters it stands for; none if there is no break. -/
def lineBreak (p : Place) : List Char × Place :=
  match p.rest with
  | '\r' :: '\n' :: _ => (['\n'], p.advance 2)
  | c :: _ =>
    if isBreak c then
      (if c == '\n' || c == '\r' || c.toNat == 0x85 then ['\n'] else [c], p.forward)
    else ([], p)
  | [] => ([], p)

/-- Moves past blanks. -/
def skipSpaces (p : Place) : Place := (p.takeWhile (· == ' ')).2

/-- Moves past a comment up to the end of its line. -/
def skipComment (p : Place) : Place :=
  if p.peek? == some '#' then (p.takeWhile fun c => !isBreak c).2 else p

/-- Moves past the rest of a line that holds nothing but blanks and a comment. -/
def restOfLine? (p : Place) : Option Place :=
  let p := p.skipSpaces.skipComment
  if p.atLineEnd then some p.lineBreak.2 else none

end Place

end PageOutline.Yaml
