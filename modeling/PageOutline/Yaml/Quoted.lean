import PageOutline.Yaml.Place
import PageOutline.Yaml.Wording
import PageOutline.Text.Digit

/-!
# Quoted scalars

Text between single or double quotes. A line break between words counts as one blank, and further
breaks stand for themselves. Two single quotes stand for one between single quotes; between double
quotes a backslash starts an escape. Code points are collected last first.
-/

namespace PageOutline.Yaml

/-- The character that a one-letter escape stands for. -/
def escapedChar? (c : Char) : Option Char :=
  match c with
  | '0' => some (Char.ofNat 0)
  | 'a' => some (Char.ofNat 7)
  | 'b' => some (Char.ofNat 8)
  | 't' => some '\t'
  | '\t' => some '\t'
  | 'n' => some '\n'
  | 'v' => some (Char.ofNat 11)
  | 'f' => some (Char.ofNat 12)
  | 'r' => some '\r'
  | 'e' => some (Char.ofNat 27)
  | ' ' => some ' '
  | '"' => some '"'
  | '\\' => some '\\'
  | '/' => some '/'
  | 'N' => some (Char.ofNat 0x85)
  | '_' => some (Char.ofNat 0xA0)
  | 'L' => some (Char.ofNat 0x2028)
  | 'P' => some (Char.ofNat 0x2029)
  | _ => none

/-- The number of digits after an escape that gives a character by its number. -/
def escapeWidth? (c : Char) : Option Nat :=
  match c with
  | 'x' => some 2
  | 'u' => some 4
  | 'U' => some 8
  | _ => none

/-- A number that is a code point. -/
def codePoint (n : Nat) : Except YamlError Nat :=
  if 0x7FFFFFFF < n then .error .tooGreat
  else if 0x10FFFF < n then .error .noSuchValue
  else .ok n

/-- The number that exactly `width` digits in base sixteen give. -/
def hexNumber (width : Nat) (p : Place) : Except YamlError Nat :=
  let digits := p.rest.take width |>.takeWhile fun c => (Text.hexDigit? c).isSome
  if digits.length = width then .ok (Text.ofDigits 16 (digits.filterMap Text.hexDigit?))
  else (p.advance digits.length).refuse

/-- Code points put before others that are collected last first. -/
def collect (s : List Char) (points : List Nat) : List Nat := s.map Char.toNat ++ points

/-- The breaks between two words, after the first. -/
def quotedBreaks : Nat → List Nat → Place → Except YamlError (List Nat × Place)
  | 0, points, p => .ok (points, p)
  | n + 1, points, p =>
    if p.cutsBorder then p.refuseWithin 4
    else if p.atAnyBorder then (p.advance 3).refuse
    else
      let p := (p.takeWhile fun c => c == ' ' || c == '\t').2
      if p.sees isBreak then
        let (b, p) := p.lineBreak
        quotedBreaks n (collect b points) p
      else .ok (points, p)

/-- The text up to a blank, a line break or the closing quote. -/
def quotedWord (double : Bool) : Nat → List Nat → Place → Except YamlError (List Nat × Place)
  | 0, points, p => .ok (points, p)
  | n + 1, points, p =>
    match p.rest with
    | [] => .ok (points, p)
    | c :: rest =>
      if c == ' ' || c == '\t' || isBreak c then .ok (points, p)
      else if !double && c == '\'' then
        if rest.head? == some '\'' then quotedWord double n (c.toNat :: points) (p.advance 2)
        else .ok (points, p)
      else if double && c == '"' then .ok (points, p)
      else if double && c == '\\' then
        match rest with
        | [] => p.forward.refuse
        | e :: _ =>
          match escapedChar? e, escapeWidth? e with
          | some x, _ => quotedWord double n (x.toNat :: points) (p.advance 2)
          | none, some width =>
            match hexNumber width (p.advance 2) >>= codePoint with
            | .ok x => quotedWord double n (x :: points) (p.advance (2 + width))
            | .error e => .error e
          | none, none =>
            if isBreak e then
              match quotedBreaks n points p.forward.lineBreak.2 with
              | .ok (points, p) => quotedWord double n points p
              | .error e => .error e
            else .error .malformed
      else quotedWord double n (c.toNat :: points) p.forward

/-- The blanks and breaks between two words. -/
def quotedGap (points : List Nat) (p : Place) : Except YamlError (List Nat × Place) :=
  let (blanks, p) := p.takeWhile fun c => c == ' ' || c == '\t'
  if p.rest.isEmpty then p.refuse
  else if p.sees isBreak then
    let (first, p) := p.lineBreak
    match quotedBreaks (p.left + 1) [] p with
    | .error e => .error e
    | .ok (breaks, p) =>
      let folded := if first != ['\n'] then first else if breaks.isEmpty then [' '] else []
      .ok (breaks ++ collect folded points, p)
  else .ok (collect blanks.reverse points, p)

/-- Words and gaps up to the closing quote. -/
def quotedWords (double : Bool) : Nat → List Nat → Place → Except YamlError (List Nat × Place)
  | 0, _, _ => .error .malformed
  | n + 1, points, p =>
    match quotedWord double (p.left + 1) points p with
    | .error e => .error e
    | .ok (points, p) =>
      if p.peek? == some (if double then '"' else '\'') then .ok (points.reverse, p.forward)
      else
        match quotedGap points p with
        | .error e => .error e
        | .ok (points, p) => quotedWords double n points p

/-- The text of a quoted scalar that starts here. -/
def quotedScalar (double : Bool) (p : Place) : Except YamlError (Wording × Place) :=
  (quotedWords double (p.left + 1) [] p.forward).map fun (points, p) => (.ofPoints points, p)

end PageOutline.Yaml
