import PageOutline.Command

/-!
# Tables

Maps from codes that remember their order. A code that is set again keeps its place and a new one
goes to the end. `find?` is the view through which every operation is described.
-/

namespace PageOutline

/-- Values by code, in order of first insertion. -/
structure Table (α : Type) where
  entries : List (Code × α)

namespace Table

variable {α : Type}

/-- A table without entries. -/
def empty : Table α := ⟨[]⟩

/-- The number of entries. -/
def size (t : Table α) : Nat := t.entries.length

/-- The codes with an entry, in order. -/
def keys (t : Table α) : List Code := t.entries.map (·.1)

/-- What the table holds for a code. -/
def find? (t : Table α) (code : Code) : Option α := t.entries.lookup code

/-- Whether a code has an entry. -/
def contains (t : Table α) (code : Code) : Bool := (t.find? code).isSome

/-- Replaces the first entry with the code. -/
def replace (code : Code) (a : α) : List (Code × α) → List (Code × α)
  | [] => []
  | (c, b) :: rest => if c = code then (c, a) :: rest else (c, b) :: replace code a rest

/-- Sets what the table holds for a code. -/
def insert (t : Table α) (code : Code) (a : α) : Table α :=
  if t.contains code then ⟨replace code a t.entries⟩ else ⟨t.entries ++ [(code, a)]⟩

/-- Removes a code. -/
def erase (t : Table α) (code : Code) : Table α :=
  ⟨t.entries.filter fun e => e.1 != code⟩

/-- Sets all that another table holds, in its order. -/
def merge (t other : Table α) : Table α :=
  other.entries.foldl (fun t e => t.insert e.1 e.2) t

/-- Changes everything that the table holds. -/
def map {β : Type} (f : α → β) (t : Table α) : Table β :=
  ⟨t.entries.map fun (code, a) => (code, f a)⟩

/-- Where a code has an entry, replacing that changes what is found for the code and for no
other. -/
theorem lookup_replace (code other : Code) (a : α) (es : List (Code × α))
    (h : (es.lookup code).isSome) :
    (replace code a es).lookup other = if other = code then some a else es.lookup other := by
  induction es with
  | nil => simp at h
  | cons e rest ih =>
    obtain ⟨c, b⟩ := e
    unfold replace
    by_cases hc : c = code
    · subst hc
      by_cases ho : other = c
      · simp [ho]
      · have hbeq : (other == c) = false := by simpa using ho
        simp [List.lookup_cons, ho, hbeq]
    · have hcode : (code == c) = false := by simpa using fun h => hc h.symm
      rw [List.lookup_cons, hcode] at h
      rw [if_neg hc, List.lookup_cons, List.lookup_cons, ih h]
      by_cases ho : other = c
      · subst ho
        simp [hc]
      · have hbeq : (other == c) = false := by simpa using ho
        simp [hbeq]

/-- Setting a code changes what is held for it and for nothing else. -/
theorem find?_insert (t : Table α) (code other : Code) (a : α) :
    (t.insert code a).find? other = if other = code then some a else t.find? other := by
  unfold insert
  split
  next h => exact lookup_replace code other a t.entries h
  next h =>
    simp only [find?, contains, Bool.not_eq_true, Option.isSome_eq_false_iff,
      Option.isNone_iff_eq_none] at h ⊢
    rw [List.lookup_append]
    by_cases ho : other = code
    · subst ho
      simp [h]
    · have hbeq : (other == code) = false := by simpa using ho
      simp [List.lookup_cons, ho, hbeq]

/-- Setting all that another table holds hides what was held for its codes and nothing else. -/
theorem find?_merge (t : Table α) {other : Table α} (hkeys : other.keys.Nodup) (code : Code) :
    (t.merge other).find? code = (other.find? code).or (t.find? code) := by
  obtain ⟨es⟩ := other
  simp only [merge, keys, find?] at hkeys ⊢
  induction es generalizing t with
  | nil => rfl
  | cons e es ih =>
    obtain ⟨hfresh, hkeys⟩ := List.nodup_cons.1 hkeys
    have hfind := find?_insert t e.1 code e.2
    rw [find?, find?] at hfind
    rw [List.foldl_cons, ih (t.insert e.1 e.2) hkeys, hfind, List.lookup_cons]
    by_cases hcode : code = e.1
    · have hnone : es.lookup code = none := by
        rw [List.lookup_eq_none_iff]
        intro entry hentry
        have hne : code ≠ entry.1 := fun h =>
          hfresh (List.mem_map.2 ⟨entry, hentry, h.symm.trans hcode⟩)
        exact bne_iff_ne.2 hne
      rw [hnone, if_pos hcode, beq_iff_eq.2 hcode]
      rfl
    · rw [if_neg hcode, beq_eq_false_iff_ne.2 hcode]

/-- Something is held for exactly the codes among the keys. -/
theorem contains_iff_mem_keys (t : Table α) (code : Code) :
    t.contains code = true ↔ code ∈ t.keys := by
  obtain ⟨es⟩ := t
  simp only [contains, find?, keys]
  induction es with
  | nil => simp
  | cons e es ih =>
    rw [List.lookup_cons, List.map_cons, List.mem_cons, ← ih]
    by_cases hcode : code = e.1
    · simp [hcode]
    · simp [hcode, beq_eq_false_iff_ne.2 hcode]

/-- Where no code has two entries, what is held for a code is its entry. -/
theorem find?_eq_some_iff {t : Table α} (hkeys : t.keys.Nodup) {code : Code} {a : α} :
    t.find? code = some a ↔ (code, a) ∈ t.entries := by
  obtain ⟨es⟩ := t
  simp only [find?, keys] at hkeys ⊢
  induction es with
  | nil => simp
  | cons e es ih =>
    obtain ⟨hfresh, hkeys⟩ := List.nodup_cons.1 hkeys
    rw [List.lookup_cons, List.mem_cons]
    by_cases hcode : code = e.1
    · subst hcode
      have hnot : (e.1, a) ∉ es := fun h => hfresh (List.mem_map.2 ⟨_, h, rfl⟩)
      simp only [beq_self_eq_true, hnot, or_false, Option.some.injEq]
      rw [Prod.ext_iff, eq_comm]
      simp
    · have hne : (code, a) ≠ e := fun h => hcode (congrArg Prod.fst h)
      simp only [beq_eq_false_iff_ne.2 hcode, ih hkeys, hne, false_or]

/-- A new code goes to the end. -/
theorem insert_of_notMem_keys {t : Table α} {code : Code} (h : code ∉ t.keys) (a : α) :
    t.insert code a = ⟨t.entries ++ [(code, a)]⟩ := by
  rw [← contains_iff_mem_keys] at h
  rw [insert, if_neg h]

/-- Changing everything that a table holds changes what is found. -/
theorem find?_map {β : Type} (f : α → β) (t : Table α) (code : Code) :
    (t.map f).find? code = (t.find? code).map f := by
  obtain ⟨es⟩ := t
  simp only [map, find?]
  induction es with
  | nil => rfl
  | cons e es ih =>
    rw [List.map_cons, List.lookup_cons, List.lookup_cons, ih]
    cases code == e.1 <;> rfl

end Table

end PageOutline
