/-!
# Code points

The numbers of characters. Some notations can also name a surrogate, which is half of a pair in
another encoding and no character, so a text read from them is kept as its code points.
-/

namespace PageOutline.Text

/-- The character with a code point; a surrogate has none. -/
def pointChar? (n : Nat) : Option Char :=
  if h : n.isValidChar then some (Char.ofNatAux n h) else none

/-- What stands for a code point that is no character. -/
def replacementChar : Char := Char.ofNat 0xFFFD

/-- The characters of some code points, surrogates replaced. -/
def charsOfPoints (ps : List Nat) : List Char :=
  ps.map fun n => (pointChar? n).getD replacementChar

/-- The text of some code points, if all are characters. -/
def ofPoints? (ps : List Nat) : Option String :=
  (ps.mapM pointChar?).map String.ofList

/-- A character that a code point has is found at that code point. -/
theorem toNat_eq_of_pointChar? {n : Nat} {c : Char} (h : pointChar? n = some c) : c.toNat = n := by
  by_cases hv : n.isValidChar
  · rw [pointChar?, dif_pos hv, Option.some.injEq] at h
    rw [← h]
    rfl
  · rw [pointChar?, dif_neg hv] at h
    cases h

/-- A text made of code points has just these. -/
theorem map_toNat_of_ofPoints? {ps : List Nat} {s : String} (h : ofPoints? ps = some s) :
    s.toList.map Char.toNat = ps := by
  obtain ⟨cs, hcs, rfl⟩ := Option.map_eq_some_iff.1 h
  rw [String.toList_ofList]
  clear h
  induction ps generalizing cs with
  | nil => simp_all
  | cons p ps ih =>
    simp only [List.mapM_cons, Option.bind_eq_bind, Option.bind_eq_some_iff, Option.pure_def,
      Option.some.injEq] at hcs
    obtain ⟨c, hc, rest, hrest, rfl⟩ := hcs
    rw [List.map_cons, toNat_eq_of_pointChar? hc, ih rest hrest]

end PageOutline.Text
