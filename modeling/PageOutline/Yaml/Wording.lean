import PageOutline.Value.Basic

/-!
# Texts of scalars

The text that a scalar is written with. An escape may name a surrogate, which no `String` holds, so
such a text is kept as its code points.
-/

namespace PageOutline.Yaml

/-- The text of a scalar. -/
inductive Wording where
  | text (s : String)
  /-- A text with surrogates among its code points. -/
  | points (ps : List Nat)
deriving DecidableEq

namespace Wording

/-- The text of some characters. -/
def ofChars (s : List Char) : Wording := .text (String.ofList s)

/-- The text of some code points. -/
def ofPoints (ps : List Nat) : Wording :=
  match Text.ofPoints? ps with
  | some s => .text s
  | none => .points ps

/-- The text with surrogates replaced. No form of a scalar admits what stands for them. -/
def shown : Wording → String
  | .text s => s
  | .points ps => String.ofList (Text.charsOfPoints ps)

/-- The text as a value. -/
def value : Wording → Value
  | .text s => .str s
  | .points ps => .points ps

end Wording

end PageOutline.Yaml
