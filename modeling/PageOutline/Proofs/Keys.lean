import Mathlib.Data.List.Induction
import Mathlib.Data.List.Nodup
import PageOutline.Proofs.Loading

/-!
# Equal keys

Keys that are equal denote the same code, but keys of one code need not be equal: a number that is
cut off differs from the whole one, and no text is a number. Among keys of one code being equal is
an equivalence, so putting keys in order into a dictionary leaves one of each class.
-/

namespace PageOutline

/-! ## Numbers as ratios -/

namespace Binary64

variable {x y : Binary64} {n m : Int} {d e : Nat}

/-- The denominator of a decimal's ratio is positive. -/
theorem den_pos_of_toRatio? (h : x.toRatio? = some (n, d)) : 0 < d := by
  cases x with
  | finite negative mantissa exponent canonical =>
    simp only [toRatio?, magnitude, scaleRatio, Option.some.injEq, Prod.mk.injEq] at h
    obtain ⟨-, rfl⟩ := h
    split
    · exact Nat.one_pos
    · rw [Nat.shiftLeft_eq, Nat.one_mul]
      exact Nat.two_pow_pos _
  | infinity negative => cases h
  | nan => cases h

/-- Two decimals are equal if their ratios are, multiplied out. -/
theorem sameValue_iff_of_toRatio? (hx : x.toRatio? = some (n, d)) (hy : y.toRatio? = some (m, e)) :
    x.sameValue y = true ↔ n * e = m * d := by
  cases x with
  | finite => simp [sameValue, hx, hy]
  | infinity => cases hx
  | nan => cases hx

/-- A decimal equals an integer if its numerator is that multiple of its denominator. -/
theorem isInt_iff_of_toRatio? (hx : x.toRatio? = some (n, d)) (i : Int) :
    x.isInt i = true ↔ n = i * d := by
  simp [isInt, hx]

/-- A decimal that equals an integer is finite. -/
theorem exists_toRatio?_of_isInt {i : Int} (h : x.isInt i = true) :
    ∃ n d, x.toRatio? = some (n, d) := by
  cases hx : x.toRatio? with
  | none => simp [isInt, hx] at h
  | some r => exact ⟨r.1, r.2, rfl⟩

/-- What equals a finite decimal is finite too. -/
theorem exists_toRatio?_of_sameValue (hx : x.toRatio? = some (n, d)) (h : x.sameValue y = true) :
    ∃ m e, y.toRatio? = some (m, e) := by
  cases hy : y.toRatio? with
  | none => cases x <;> simp_all [sameValue, toRatio?]
  | some r => exact ⟨r.1, r.2, rfl⟩

end Binary64

namespace Value

/-- What a number is as a ratio with a positive denominator; truth values count as numbers. -/
def ratio? : Value → Option (Int × Nat)
  | .float x => x.toRatio?
  | v => v.asInt?.map (·, 1)

variable {u v w : Value} {n m k : Int} {d e f : Nat}

/-- A number that has a ratio is an integer, which is its own, or a decimal. -/
theorem ratio?_cases (h : v.ratio? = some (n, d)) :
    v.asInt? = some n ∧ d = 1 ∨ ∃ x, v = .float x ∧ x.toRatio? = some (n, d) := by
  cases v with
  | bool b => cases h; exact .inl ⟨rfl, rfl⟩
  | int i => cases h; exact .inl ⟨rfl, rfl⟩
  | float x => exact .inr ⟨x, rfl, h⟩
  | _ => cases h

/-- The denominator of a number's ratio is positive. -/
theorem den_pos_of_ratio? (h : v.ratio? = some (n, d)) : 0 < d := by
  obtain ⟨-, rfl⟩ | ⟨x, -, hx⟩ := ratio?_cases h
  · exact Nat.one_pos
  · exact Binary64.den_pos_of_toRatio? hx

/-- Integers and truth values are equal if they stand for one integer. -/
theorem sameValue_iff_of_asInt? (hv : v.asInt? = some n) (hw : w.asInt? = some m) :
    v.sameValue w = true ↔ n = m := by
  cases v with
  | bool a =>
    cases hv
    cases w with
    | bool b => cases hw; cases a <;> cases b <;> simp [sameValue]
    | int j => cases hw; rw [sameValue, beq_iff_eq, eq_comm]
    | _ => cases hw
  | int i =>
    cases hv
    cases w <;> cases hw <;> rw [sameValue, beq_iff_eq]
  | _ => cases hv

/-- An integer or a truth value is compared with a decimal by the integer it stands for. -/
theorem sameValue_float_iff_of_asInt? (hv : v.asInt? = some n) (y : Binary64) :
    v.sameValue (.float y) = true ↔ y.isInt n = true := by
  cases v <;> cases hv <;> simp only [sameValue]

/-- A decimal is compared with an integer or a truth value by the integer that this stands for. -/
theorem float_sameValue_iff_of_asInt? (hw : w.asInt? = some m) (x : Binary64) :
    Value.sameValue (.float x) w = true ↔ x.isInt m = true := by
  cases w <;> cases hw <;> simp only [sameValue]

/-- Numbers are equal when their ratios are. -/
theorem sameValue_iff_of_ratio? (hv : v.ratio? = some (n, d)) (hw : w.ratio? = some (m, e)) :
    v.sameValue w = true ↔ n * e = m * d := by
  obtain ⟨hvint, rfl⟩ | ⟨x, rfl, hx⟩ := ratio?_cases hv <;>
    obtain ⟨hwint, rfl⟩ | ⟨y, rfl, hy⟩ := ratio?_cases hw
  · simp [sameValue_iff_of_asInt? hvint hwint]
  · rw [sameValue_float_iff_of_asInt? hvint, Binary64.isInt_iff_of_toRatio? hy, eq_comm]
    simp
  · rw [float_sameValue_iff_of_asInt? hwint, Binary64.isInt_iff_of_toRatio? hx]
    simp
  · rw [sameValue, Binary64.sameValue_iff_of_toRatio? hx hy]

/-- A number denotes the integer that it is cut off to. -/
theorem ofValue_of_ratio? (h : v.ratio? = some (n, d)) :
    KeyReading.ofValue v = .code (n.tdiv d) := by
  obtain ⟨hv, rfl⟩ | ⟨x, rfl, hx⟩ := ratio?_cases h
  · cases v <;> cases hv <;> simp [KeyReading.ofValue]
  · cases x with
    | finite => simp [KeyReading.ofValue, Binary64.truncate?, hx]
    | infinity => cases hx
    | nan => cases hx

/-- Equal ratios are cut off to one integer. -/
theorem tdiv_eq_of_cross (hd : 0 < d) (he : 0 < e) (h : n * e = m * d) : n.tdiv d = m.tdiv e := by
  have hd' : (0 : Int) < d := by exact_mod_cast hd
  have he' : (0 : Int) < e := by exact_mod_cast he
  calc n.tdiv d = (n * e).tdiv (d * e) := (Int.mul_tdiv_mul_of_pos_left n d he').symm
    _ = (m * d).tdiv (e * d) := by rw [h, Int.mul_comm (d : Int) e]
    _ = m.tdiv e := Int.mul_tdiv_mul_of_pos_left m e hd'

/-- Equality of ratios is Euclidean. -/
theorem cross_eq_of_cross (hd : 0 < d) (he : n * e = m * d) (hf : n * f = k * d) :
    m * f = k * e := by
  have hd' : (d : Int) ≠ 0 := by exact_mod_cast Nat.ne_of_gt hd
  refine Int.eq_of_mul_eq_mul_right hd' ?_
  calc m * f * d = m * d * f := Int.mul_right_comm m f d
    _ = n * f * e := by rw [← he, Int.mul_right_comm]
    _ = k * e * d := by rw [hf, Int.mul_right_comm]

/-! ## Values that denote a code -/

/-- A value that denotes a code is a number that has a ratio, or a text or bytes. -/
theorem cases_of_ofValue {code : Int} (h : KeyReading.ofValue v = .code code) :
    (∃ n d, v.ratio? = some (n, d)) ∨ (∃ s, v = .str s) ∨ ∃ b, v = .bytes b := by
  cases v with
  | bool b => exact .inl ⟨_, _, rfl⟩
  | int i => exact .inl ⟨_, _, rfl⟩
  | float x =>
    cases x with
    | finite => exact .inl ⟨_, _, rfl⟩
    | infinity => cases h
    | nan => cases h
  | str s => exact .inr (.inl ⟨s, rfl⟩)
  | bytes b => exact .inr (.inr ⟨b, rfl⟩)
  | _ => cases h

/-- What equals a number with a ratio is one too. -/
theorem exists_ratio?_of_sameValue (hv : v.ratio? = some (n, d)) (h : v.sameValue w = true) :
    ∃ m e, w.ratio? = some (m, e) := by
  obtain ⟨hvint, rfl⟩ | ⟨x, rfl, hx⟩ := ratio?_cases hv
  · cases w with
    | bool b => exact ⟨_, _, rfl⟩
    | int j => exact ⟨_, _, rfl⟩
    | float y =>
      rw [sameValue_float_iff_of_asInt? hvint] at h
      exact Binary64.exists_toRatio?_of_isInt h
    | _ => cases v <;> simp [sameValue, asInt?] at h hvint
  · cases w with
    | bool b => exact ⟨_, _, rfl⟩
    | int j => exact ⟨_, _, rfl⟩
    | float y =>
      rw [sameValue] at h
      exact Binary64.exists_toRatio?_of_sameValue hx h
    | _ => simp [sameValue] at h

/-- What equals a value that denotes a code is the same value, or both are numbers of one ratio. -/
theorem sameValue_iff_of_ofValue {code : Int} (hv : KeyReading.ofValue v = .code code) :
    v.sameValue w = true ↔ v = w ∨
      ∃ n d m e, v.ratio? = some (n, d) ∧ w.ratio? = some (m, e) ∧ n * e = m * d := by
  obtain ⟨n, d, hn⟩ | ⟨s, rfl⟩ | ⟨b, rfl⟩ := cases_of_ofValue hv
  · constructor
    · intro h
      obtain ⟨m, e, hm⟩ := exists_ratio?_of_sameValue hn h
      exact .inr ⟨n, d, m, e, hn, hm, (sameValue_iff_of_ratio? hn hm).1 h⟩
    · rintro (rfl | ⟨n', d', m, e, hn', hm, hcross⟩)
      · exact (sameValue_iff_of_ratio? hn hn).2 rfl
      · exact (sameValue_iff_of_ratio? hn' hm).2 hcross
  · cases w <;> simp [sameValue, ratio?, asInt?]
  · cases w <;> simp [sameValue, ratio?, asInt?]

/-- A value that equals one of a code denotes this code too. -/
theorem ofValue_of_sameValue {code : Int} (hv : KeyReading.ofValue v = .code code)
    (h : v.sameValue w = true) : KeyReading.ofValue w = .code code := by
  obtain rfl | ⟨n, d, m, e, hn, hm, hcross⟩ := (sameValue_iff_of_ofValue hv).1 h
  · exact hv
  · rw [← hv, ofValue_of_ratio? hn, ofValue_of_ratio? hm,
      tdiv_eq_of_cross (den_pos_of_ratio? hn) (den_pos_of_ratio? hm) hcross]

/-- Two values that equal one of a code are equal. -/
theorem sameValue_of_sameValue {code : Int} (hu : KeyReading.ofValue u = .code code)
    (hv : u.sameValue v = true) (hw : u.sameValue w = true) : v.sameValue w = true := by
  obtain rfl | ⟨n, d, m, e, hn, hm, hcross⟩ := (sameValue_iff_of_ofValue hu).1 hv
  · exact hw
  · obtain ⟨k, f, hk⟩ := exists_ratio?_of_sameValue hn hw
    have hcross' := (sameValue_iff_of_ratio? hn hk).1 hw
    exact (sameValue_iff_of_ratio? hm hk).2
      (cross_eq_of_cross (den_pos_of_ratio? hn) hcross hcross')

end Value

/-! ## Keys of a dictionary -/

namespace Yaml.Key

variable {a b c key : Key} {code : Code} {keys : List Key}

/-- The code that a key denotes, if it denotes one. -/
def code? (key : Key) : Option Code := (KeyReading.ofValue key.value).code?

/-- A key denotes a code if its value is read as one. -/
theorem code?_eq_some_iff : key.code? = some code ↔ KeyReading.ofValue key.value = .code code := by
  unfold code?
  cases KeyReading.ofValue key.value <;> simp [KeyReading.code?]

/-- Keys are equal as their values are, but for the word that is no number. -/
theorem isSame_eq_of_code? (ha : a.code? = some code) (b : Key) :
    a.isSame b = a.value.sameValue b.value := by
  rw [code?_eq_some_iff] at ha
  unfold isSame
  split
  next hnan _ => rw [hnan] at ha; cases ha
  next => rfl

/-- A key of a code equals itself, which a key that is not a number need not. -/
theorem isSame_self (ha : a.code? = some code) : a.isSame a = true := by
  rw [isSame_eq_of_code? ha]
  exact (Value.sameValue_iff_of_ofValue (code?_eq_some_iff.1 ha)).2 (.inl rfl)

/-- Equal keys denote one code. -/
theorem code?_of_isSame (ha : a.code? = some code) (h : a.isSame b = true) :
    b.code? = some code := by
  rw [isSame_eq_of_code? ha] at h
  exact code?_eq_some_iff.2 (Value.ofValue_of_sameValue (code?_eq_some_iff.1 ha) h)

/-- Two keys that equal one of a code are equal. -/
theorem isSame_of_isSame (ha : a.code? = some code) (hb : a.isSame b = true)
    (hc : a.isSame c = true) : b.isSame c = true := by
  rw [isSame_eq_of_code? (code?_of_isSame ha hb)]
  rw [isSame_eq_of_code? ha] at hb hc
  exact Value.sameValue_of_sameValue (code?_eq_some_iff.1 ha) hb hc

/-- Puts a key behind others unless it is among them already. -/
def addTo (keys : List Key) (key : Key) : List Key :=
  if keys.any (·.isSame key) then keys else keys ++ [key]

/-- The keys of a dictionary whose entries are written with some keys: of equal ones the first. -/
def distinct (keys : List Key) : List Key := keys.foldl addTo []

/-- Setting an entry of a dictionary puts its key behind the others or leaves the keys as they
are. -/
theorem map_setPart (key : Key) (part : Nat) (es : List (Key × Nat)) :
    (key.setPart part es).map (·.1) = addTo (es.map (·.1)) key := by
  induction es with
  | nil => rfl
  | cons e es ih =>
    unfold setPart
    cases hsame : e.1.isSame key with
    | true => simp [addTo, hsame]
    | false =>
      rw [if_neg Bool.false_ne_true, List.map_cons, ih]
      unfold addTo
      rw [List.map_cons, List.any_cons, hsame, Bool.false_or]
      split <;> rfl

/-- One more key is put behind the ones that stay, unless one of these equals it. -/
theorem distinct_concat (keys : List Key) (key : Key) :
    distinct (keys ++ [key]) = addTo (distinct keys) key := by
  rw [distinct, List.foldl_append]
  rfl

/-- The keys that stay do so in the order in which they are written. -/
theorem distinct_sublist (keys : List Key) : (distinct keys).Sublist keys := by
  induction keys using List.reverseRecOn with
  | nil => exact .slnil
  | append_singleton keys key ih =>
    rw [distinct_concat, addTo]
    split
    · exact ih.trans (List.sublist_append_left keys [key])
    · exact ih.append (.refl [key])

/-- All keys stay exactly if no two of them are equal. -/
theorem distinct_eq_self_iff :
    distinct keys = keys ↔ keys.Pairwise fun a b => a.isSame b = false := by
  induction keys using List.reverseRecOn with
  | nil => exact ⟨fun _ => .nil, fun _ => rfl⟩
  | append_singleton keys key ih =>
    rw [distinct_concat, List.pairwise_append, ← ih]
    constructor
    · intro h
      have hlength := congrArg List.length h
      have hle := (distinct_sublist keys).length_le
      unfold addTo at h hlength
      split at h
      next hany =>
        rw [if_pos hany, List.length_append, List.length_singleton] at hlength
        omega
      next hany =>
        have hself := List.append_cancel_right h
        rw [hself] at hany
        exact ⟨hself, List.pairwise_singleton _ _, by simpa using hany⟩
    · rintro ⟨hself, -, hnone⟩
      have hany : ¬ keys.any (·.isSame key) = true := by simpa using hnone
      rw [hself, addTo, if_neg hany]

/-- No key is lost exactly if no two of them are equal. -/
theorem length_distinct_eq_iff :
    (distinct keys).length = keys.length ↔ keys.Pairwise fun a b => a.isSame b = false := by
  rw [← distinct_eq_self_iff]
  exact ⟨(distinct_sublist keys).eq_of_length, congrArg List.length⟩

/-- Each key stays or equals one that does. -/
theorem exists_mem_distinct (h : key ∈ keys) :
    ∃ first ∈ distinct keys, first = key ∨ first.isSame key = true := by
  induction keys using List.reverseRecOn with
  | nil => cases h
  | append_singleton keys last ih =>
    rw [distinct_concat, addTo]
    obtain h | h := List.mem_append.1 h
    · obtain ⟨first, hfirst, hkey⟩ := ih h
      refine ⟨first, ?_, hkey⟩
      split
      · exact hfirst
      · exact List.mem_append_left [last] hfirst
    · obtain rfl := List.mem_singleton.1 h
      split
      next hany =>
        obtain ⟨first, hfirst, hsame⟩ := List.any_eq_true.1 hany
        exact ⟨first, hfirst, .inr hsame⟩
      next => exact ⟨key, by simp, .inl rfl⟩

section Codes

variable {codes : List Code} (hcodes : (distinct keys).map code? = codes.map some)
include hcodes

/-- Where the keys that stay denote some codes, each of them denotes one of these. -/
theorem exists_code?_of_mem_distinct (h : key ∈ distinct keys) :
    ∃ code ∈ codes, key.code? = some code := by
  have hmem : key.code? ∈ codes.map some := hcodes ▸ List.mem_map_of_mem h
  obtain ⟨code, hcode, hkey⟩ := List.mem_map.1 hmem
  exact ⟨code, hcode, hkey.symm⟩

/-- A key denotes the code of the key that stays for it. -/
theorem exists_first_of_mem (h : key ∈ keys) :
    ∃ first ∈ distinct keys, first.isSame key = true ∧ first.code? = key.code? := by
  obtain ⟨first, hfirst, hkey⟩ := exists_mem_distinct h
  obtain ⟨code, -, hcode⟩ := exists_code?_of_mem_distinct hcodes hfirst
  refine ⟨first, hfirst, ?_⟩
  obtain rfl | hsame := hkey
  · exact ⟨isSame_self hcode, rfl⟩
  · exact ⟨hsame, hcode.trans (code?_of_isSame hcode hsame).symm⟩

/-- The codes of the keys that stay are all codes that a key denotes. -/
theorem mem_codes_iff : code ∈ codes ↔ ∃ key ∈ keys, key.code? = some code := by
  constructor
  · intro h
    have hmem : some code ∈ (distinct keys).map code? := hcodes ▸ List.mem_map_of_mem h
    obtain ⟨key, hkey, hcode⟩ := List.mem_map.1 hmem
    exact ⟨key, (distinct_sublist keys).subset hkey, hcode⟩
  · rintro ⟨key, hkey, hcode⟩
    obtain ⟨first, hfirst, -, hsame⟩ := exists_first_of_mem hcodes hkey
    obtain ⟨code', hcode', heq⟩ := exists_code?_of_mem_distinct hcodes hfirst
    cases heq.symm.trans (hsame.trans hcode)
    exact hcode'

/-- Where no two keys that stay denote one code, keys of one code are equal. -/
theorem isSame_of_code? (hnodup : codes.Nodup) (ha : a ∈ keys) (hb : b ∈ keys)
    (hacode : a.code? = some code) (hbcode : b.code? = some code) : a.isSame b = true := by
  obtain ⟨first, hfirst, hsamea, hcodea⟩ := exists_first_of_mem hcodes ha
  obtain ⟨first', hfirst', hsameb, hcodeb⟩ := exists_first_of_mem hcodes hb
  have hdistinct : ((distinct keys).map code?).Nodup :=
    hcodes ▸ hnodup.map fun _ _ h => Option.some.inj h
  have hfirsts : first = first' := List.inj_on_of_nodup_map hdistinct hfirst hfirst'
    (hcodea.trans (hacode.trans (hcodeb.trans hbcode).symm))
  subst hfirsts
  exact isSame_of_isSame (hcodea.trans hacode) hsamea hsameb

end Codes

end Yaml.Key

end PageOutline
