import Mathlib.Data.String.Basic
import PageOutline.Page.Render

/-!
# Literals on one line

A literal has no line break, whatever characters the texts in the value have: those that would break
the line are escaped. Numbers, dates and the marks of collections have none to begin with.
-/

namespace PageOutline

namespace Text

/-- A text without a line break. -/
def OneLine (s : String) : Prop := '\n' ∉ s.toList

instance (s : String) : Decidable (OneLine s) := inferInstanceAs (Decidable ('\n' ∉ s.toList))

variable {s t sep : String} {l : List String} {c quote : Char}

/-- Two texts in a row are one line if either is. -/
@[simp] theorem oneLine_append : OneLine (s ++ t) ↔ OneLine s ∧ OneLine t := by
  simp [OneLine, not_or]

/-- A list of characters is one line if no line break is among them. -/
@[simp] theorem oneLine_ofList {cs : List Char} : OneLine (String.ofList cs) ↔ '\n' ∉ cs := by
  rw [OneLine, String.toList_ofList]

/-- Lines that are joined by a line are one line. -/
theorem oneLine_intercalate (hsep : OneLine sep) (h : ∀ s ∈ l, OneLine s) :
    OneLine (sep.intercalate l) := by
  induction l with
  | nil => exact List.not_mem_nil
  | cons s l ih =>
    have hs := h s List.mem_cons_self
    cases l with
    | nil => simpa using hs
    | cons t l =>
      have hrest := ih fun u hu => h u (List.mem_cons_of_mem _ hu)
      rw [String.intercalate_cons_cons, oneLine_append, oneLine_append]
      exact ⟨⟨hs, hsep⟩, hrest⟩

/-- A character that is put behind a text a number of times stands there that often. -/
theorem toList_pushn (s : String) (c : Char) (n : Nat) :
    (s.pushn c n).toList = s.toList ++ List.replicate n c := by
  induction n with
  | zero => exact (List.append_nil _).symm
  | succ n ih =>
    have hstep : s.pushn c (n + 1) = (s.pushn c n).push c := rfl
    rw [hstep, String.toList_push, ih, List.append_assoc, List.replicate_succ']

/-- A line that is filled up with a character stays one line. -/
theorem oneLine_pushn (hs : OneLine s) (hc : c ≠ '\n') (n : Nat) : OneLine (s.pushn c n) := by
  rw [OneLine, toList_pushn, List.mem_append, not_or]
  exact ⟨hs, fun hmem => hc (List.eq_of_mem_replicate hmem).symm⟩

/-! ### Numbers -/

/-- A natural number is written with digits. -/
theorem isDigit_of_mem_toString {n : Nat} (h : c ∈ (toString n).toList) : c.isDigit = true := by
  rw [Nat.toString_eq_repr, Nat.toList_repr] at h
  exact Nat.isDigit_of_mem_toDigits (by decide) (by decide) h

/-- A natural number is written on one line. -/
theorem oneLine_toString_nat (n : Nat) : OneLine (toString n) := by
  intro hmem
  cases isDigit_of_mem_toString hmem

/-- A numeral has digits and perhaps a sign. -/
theorem eq_minus_or_isDigit {i : Int} (h : c ∈ (toString i).toList) :
    c = '-' ∨ c.isDigit = true := by
  cases i with
  | ofNat n => exact .inr (isDigit_of_mem_toString h)
  | negSucc n =>
    have hwritten : toString (Int.negSucc n) = "-" ++ toString (n + 1) := rfl
    rw [hwritten, String.toList_append, List.mem_append] at h
    exact h.imp List.mem_singleton.1 isDigit_of_mem_toString

/-- An integer is written with at least one character. -/
theorem toList_toString_ne_nil (i : Int) : (toString i).toList ≠ [] := by
  cases i with
  | ofNat n =>
    have hwritten : toString (Int.ofNat n) = toString n := rfl
    rw [hwritten, Nat.toString_eq_repr, Nat.toList_repr]
    exact Nat.toDigits_ne_nil
  | negSucc n =>
    have hwritten : toString (Int.negSucc n) = "-" ++ toString (n + 1) := rfl
    rw [hwritten, String.toList_append]
    simp

/-- An integer is written on one line. -/
theorem oneLine_toString_int (i : Int) : OneLine (toString i) := by
  intro hmem
  rcases eq_minus_or_isDigit hmem with h | h <;> cases h

/-- Part of a numeral is no more than one line either. -/
theorem oneLine_numeral_part {n : Nat} {cs : List Char} (h : cs ⊆ (toString n).toList) :
    OneLine (String.ofList cs) :=
  oneLine_ofList.2 fun hmem => oneLine_toString_nat n (h hmem)

/-! ### Texts and bytes in quotes -/

/-- A hexadecimal digit is no line break. -/
theorem hexChar_ne_newline {n : Nat} (h : n < 16) : hexChar n ≠ '\n' := by
  revert h n
  decide

/-- No hexadecimal number has a line break in it. -/
theorem newline_notMem_hexDigits (width n : Nat) : '\n' ∉ hexDigits width n := by
  induction width generalizing n with
  | zero => exact List.not_mem_nil
  | succ width ih =>
    have hdigit := hexChar_ne_newline (Nat.mod_lt n (by decide : 16 > 0))
    simp [hexDigits, ih, hdigit.symm]

/-- An escaped character has no line break in it. -/
theorem newline_notMem_escapeCode (n : Nat) : '\n' ∉ escapeCode n := by
  unfold escapeCode
  split_ifs <;> simp [newline_notMem_hexDigits]

/-- A line break is written as two other characters, and no other character comes out as one. -/
theorem newline_notMem_quotedChar (hquote : quote ≠ '\n') (c : Char) :
    '\n' ∉ quotedChar quote c := by
  unfold quotedChar
  split_ifs with hplain hbreak hreturn htab hprint
  · rw [Bool.or_eq_true, beq_iff_eq, beq_iff_eq] at hplain
    obtain rfl | rfl := hplain
    · simp [hquote.symm]
    · decide
  · decide
  · decide
  · decide
  · rw [beq_iff_eq] at hbreak
    simpa using Ne.symm hbreak
  · exact newline_notMem_escapeCode _

/-- A quotation mark is no line break. -/
theorem quoteFor_ne_newline (s : List Char) : quoteFor s ≠ '\n' := by
  unfold quoteFor
  split_ifs <;> decide

/-- A text between quotation marks has its line breaks escaped. -/
theorem newline_notMem_quoted (s : List Char) : '\n' ∉ quoted s := by
  have hquote := quoteFor_ne_newline s
  simp [quoted, hquote.symm, newline_notMem_quotedChar hquote]

/-- Code points between quotation marks have their line breaks escaped. -/
theorem newline_notMem_quotedPoints (ps : List Nat) : '\n' ∉ quotedPoints ps := by
  have hquote := quoteFor_ne_newline (charsOfPoints ps)
  simp only [quotedPoints, List.mem_cons, List.mem_append, List.mem_flatMap, not_or, not_exists,
    not_and, List.not_mem_nil, or_false, List.cons_append]
  refine ⟨hquote.symm, fun n _ => ?_, hquote.symm⟩
  cases pointChar? n with
  | some c => exact newline_notMem_quotedChar hquote c
  | none => exact newline_notMem_escapeCode n

/-- Bytes between quotation marks have their line breaks escaped. -/
theorem newline_notMem_quotedBytes (b : List UInt8) : '\n' ∉ quotedBytes b := by
  have hquote := quoteFor_ne_newline (b.map fun x => Char.ofNat x.toNat)
  simp only [quotedBytes, List.mem_cons, List.mem_append, List.mem_flatMap, not_or, not_exists,
    not_and, List.not_mem_nil, or_false, List.cons_append]
  refine ⟨by decide, hquote.symm, fun c _ => ?_, hquote.symm⟩
  split_ifs
  · exact newline_notMem_quotedChar hquote c
  · exact newline_notMem_escapeCode _

end Text

open Text

/-! ### Doubles and times -/

/-- An exponent is written on one line. -/
theorem Binary64.Layout.oneLine_exponentText (l : Layout) (e : Int) :
    OneLine (l.exponentText e) := by
  unfold exponentText
  dsimp only
  rw [oneLine_append, oneLine_append]
  refine ⟨⟨?_, oneLine_pushn (by decide) (by decide) _⟩, oneLine_toString_nat _⟩
  split_ifs <;> decide

/-- The digits of a decimal are written on one line. -/
theorem Binary64.Layout.oneLine_decimalText (l : Layout) (d : Decimal) :
    OneLine (l.decimalText d) := by
  have hzeros (n : Nat) : OneLine ("".pushn '0' n) := oneLine_pushn (by decide) (by decide) n
  have htake (n : Nat) : OneLine (String.ofList ((toString d.digits).toList.take n)) :=
    oneLine_numeral_part (List.take_subset ..)
  have hdrop (n : Nat) : OneLine (String.ofList ((toString d.digits).toList.drop n)) :=
    oneLine_numeral_part (List.drop_subset ..)
  have hdigits := oneLine_toString_nat d.digits
  unfold decimalText
  dsimp only
  split_ifs
  · rw [oneLine_append, oneLine_append]
    exact ⟨⟨hdigits, hzeros _⟩, by decide⟩
  · rw [oneLine_append, oneLine_append]
    exact ⟨⟨htake _, by decide⟩, hdrop _⟩
  · rw [oneLine_append, oneLine_append]
    exact ⟨⟨by decide, hzeros _⟩, hdigits⟩
  · rw [oneLine_append]
    exact ⟨htake 1, l.oneLine_exponentText _⟩
  · rw [oneLine_append, oneLine_append, oneLine_append]
    exact ⟨⟨⟨htake 1, by decide⟩, hdrop 1⟩, l.oneLine_exponentText _⟩

/-- A decimal is written on one line, in whichever layout. -/
theorem Binary64.oneLine_toText (l : Layout) (x : Binary64) : OneLine (x.toText l) := by
  cases x with
  | finite negative mantissa exponent h =>
    have hbody : OneLine
        (if mantissa = 0 then "0.0" else l.decimalText (shortest mantissa exponent)) := by
      split_ifs
      · decide
      · exact l.oneLine_decimalText _
    cases negative with
    | false => exact hbody
    | true => exact oneLine_append.2 ⟨by decide, hbody⟩
  | infinity negative =>
    cases negative with
    | false => exact (by decide : OneLine "inf")
    | true => exact (by decide : OneLine "-inf")
  | nan => exact (by decide : OneLine "nan")

/-- A date is written on one line. -/
theorem Date.oneLine_literal (d : Date) : OneLine d.literal := by
  have hwritten : d.literal = "datetime.date(" ++ toString d.year ++ ", " ++ toString d.month ++
    ", " ++ toString d.day ++ ")" := rfl
  simp only [hwritten, oneLine_append, oneLine_toString_nat]
  decide

/-- The offset of a point in time is written on one line. -/
theorem Instant.oneLine_offsetLiteral (minutes : Int) : OneLine (offsetLiteral minutes) := by
  have hpart (name : String) (hname : OneLine name) (i : Int) : OneLine (name ++ toString i) :=
    oneLine_append.2 ⟨hname, oneLine_toString_int i⟩
  unfold offsetLiteral
  split_ifs
  · decide
  · rw [oneLine_append, oneLine_append]
    refine ⟨⟨by decide, oneLine_intercalate (by decide) fun part hpartMem => ?_⟩, by decide⟩
    rcases List.mem_append.1 hpartMem with hmem | hmem
    · split_ifs at hmem
      · cases hmem
      · rw [List.mem_singleton.1 hmem]
        exact hpart "days=" (by decide) _
    · split_ifs at hmem
      · cases hmem
      · rw [List.mem_singleton.1 hmem]
        exact hpart "seconds=" (by decide) _

/-- A point in time is written on one line. -/
theorem Instant.oneLine_literal (t : Instant) : OneLine t.literal := by
  unfold literal
  dsimp only
  rw [oneLine_append, oneLine_append]
  refine ⟨⟨by decide, oneLine_intercalate (by decide) fun part hmem => ?_⟩, by decide⟩
  rcases List.mem_append.1 hmem with hmem | hmem
  · obtain ⟨n, -, rfl⟩ := List.mem_map.1 hmem
    exact oneLine_toString_nat n
  · cases hoffset : t.offset? with
    | none =>
      rw [hoffset] at hmem
      cases hmem
    | some minutes =>
      rw [hoffset] at hmem
      rw [List.mem_singleton.1 hmem, oneLine_append]
      exact ⟨by decide, oneLine_offsetLiteral minutes⟩

namespace Value

/-- Collections are written on one line when what they hold is. -/
theorem oneLine_enclosed {opening closing : String} {parts : List String} (hopen : OneLine opening)
    (hclose : OneLine closing) (hparts : ∀ part ∈ parts, OneLine part) :
    OneLine (opening ++ ", ".intercalate parts ++ closing) := by
  rw [oneLine_append, oneLine_append]
  exact ⟨⟨hopen, oneLine_intercalate (by decide) hparts⟩, hclose⟩

mutual

/-- The literal of a value is one line, whatever the value holds. -/
theorem oneLine_literal : (v : Value) → OneLine v.literal
  | .null => by decide
  | .bool true => by decide
  | .bool false => by decide
  | .int i => oneLine_toString_int i
  | .float x => x.oneLine_toText .standard
  | .str s => oneLine_ofList.2 (newline_notMem_quoted s.toList)
  | .points ps => oneLine_ofList.2 (newline_notMem_quotedPoints ps)
  | .bytes b => oneLine_ofList.2 (newline_notMem_quotedBytes b)
  | .list xs => oneLine_enclosed (by decide) (by decide) (oneLine_literals xs)
  | .tuple [] => by decide
  | .tuple [x] => by
    rw [literal, oneLine_append, oneLine_append]
    exact ⟨⟨by decide, oneLine_literal x⟩, by decide⟩
  | .tuple (x :: y :: rest) =>
    oneLine_enclosed (by decide) (by decide) (oneLine_literals (x :: y :: rest))
  | .dict es => oneLine_enclosed (by decide) (by decide) (oneLine_entryLiterals es)
  | .set [] => by decide
  | .set (x :: rest) => oneLine_enclosed (by decide) (by decide) (oneLine_literals (x :: rest))
  | .date d => d.oneLine_literal
  | .instant t => t.oneLine_literal
  | .knot _ v => oneLine_literal v
  | .again _ => (by decide : OneLine "[...]")

/-- Each of some values is written on one line. -/
theorem oneLine_literals : (xs : List Value) → ∀ s ∈ literals xs, OneLine s
  | [], _, hs => absurd hs List.not_mem_nil
  | x :: xs, s, hs => by
    rcases List.mem_cons.1 hs with rfl | hs
    · exact oneLine_literal x
    · exact oneLine_literals xs s hs

/-- Each entry of a dictionary is written on one line. -/
theorem oneLine_entryLiterals : (es : List (Value × Value)) → ∀ s ∈ entryLiterals es, OneLine s
  | [], _, hs => absurd hs List.not_mem_nil
  | (key, value) :: es, s, hs => by
    rcases List.mem_cons.1 hs with rfl | hs
    · rw [oneLine_append, oneLine_append]
      exact ⟨⟨oneLine_literal key, by decide⟩, oneLine_literal value⟩
    · exact oneLine_entryLiterals es s hs

end

end Value

end PageOutline
