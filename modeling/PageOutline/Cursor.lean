import PageOutline.Command

/-!
# Cursors

A place in the flat list of a page's commands that only moves forward. `position` is the index of
the command handed out last, and −1 before the first one.
-/

namespace PageOutline

/-- What is left of a page, and the index of the command pulled last. -/
structure Cursor where
  /-- The commands that are still to come. -/
  rest : List Command
  position : Int

namespace Cursor

/-- A cursor before the first command of a page. -/
def ofList (commands : List Command) : Cursor := ⟨commands, -1⟩

/-- Hands out the next command; nothing at the end. -/
def next? : Cursor → Option (Command × Cursor)
  | ⟨[], _⟩ => none
  | ⟨c :: rest, position⟩ => some (c, ⟨rest, position + 1⟩)

/-- The next command, without moving. -/
def peek? (cursor : Cursor) : Option Command := cursor.rest.head?

/-- Hands out the next command if it has the code; otherwise the cursor stays. -/
def nextIfCode? (cursor : Cursor) (code : Code) : Option (Command × Cursor) :=
  match cursor.peek? with
  | some c => if c.code = code then cursor.next? else none
  | none => none

variable {cursor after : Cursor} {code : Code} {slot : CodeSlot} {c : Command}

/-- A command is handed out for a code exactly if it is the next one and has the code. -/
theorem nextIfCode?_eq_some_iff :
    cursor.nextIfCode? code = some (c, after) ↔ cursor.next? = some (c, after) ∧ c.code = code := by
  obtain ⟨rest, position⟩ := cursor
  cases rest with
  | nil => simp [nextIfCode?, peek?, next?]
  | cons d rest =>
    simp only [nextIfCode?, peek?, next?, List.head?_cons]
    split <;> rename_i h <;> grind

/-- A command that is looked at is the one that is handed out next. -/
theorem exists_next?_of_peek? (h : cursor.peek? = some c) :
    ∃ after, cursor.next? = some (c, after) := by
  obtain ⟨rest, position⟩ := cursor
  obtain ⟨rest', rfl⟩ := List.head?_eq_some_iff.1 h
  exact ⟨_, rfl⟩

/-- Nothing is handed out for a code only at the end and before a command with another code. -/
theorem nextIfCode?_eq_none_iff :
    cursor.nextIfCode? code = none ↔ ∀ c ∈ cursor.peek?, c.code ≠ code := by
  unfold nextIfCode?
  cases hpeek : cursor.peek? with
  | none => simp
  | some c =>
    obtain ⟨after, hnext⟩ := exists_next?_of_peek? hpeek
    simp [hnext]

/-- Handing out a command moves the position by one. -/
theorem position_of_next? (hnext : cursor.next? = some (c, after)) :
    after.position = cursor.position + 1 := by
  obtain ⟨rest, position⟩ := cursor
  cases rest with
  | nil => cases hnext
  | cons d rest =>
    cases hnext
    rfl

/-- Hands out the longest run of commands that starts here whose codes are what a place for a code
stands for. That is what `nextIfCode?` hands out one command at a time, as `takeRun_eq` says. -/
def takeRun (cursor : Cursor) (slot : CodeSlot) : List Command × Cursor :=
  let run := cursor.rest.takeWhile (slot.holds ·.code)
  (run, ⟨cursor.rest.dropWhile (slot.holds ·.code), cursor.position + run.length⟩)

/-- A run goes on with the next command if that has the code. -/
theorem takeRun_of_next? (hnext : cursor.next? = some (c, after))
    (hholds : slot.holds c.code = true) :
    cursor.takeRun slot = (c :: (after.takeRun slot).1, (after.takeRun slot).2) := by
  obtain ⟨rest, position⟩ := cursor
  cases rest with
  | nil => cases hnext
  | cons d rest =>
    cases hnext
    have hlength (n : Nat) : position + ((n + 1 : Nat) : Int) = position + 1 + n := by omega
    simp only [takeRun, List.takeWhile_cons, List.dropWhile_cons, hholds, if_true, List.length_cons,
      hlength]

/-- A run ends before a command that does not have the code. -/
theorem takeRun_of_peek? (h : ∀ c ∈ cursor.peek?, slot.holds c.code = false) :
    cursor.takeRun slot = ([], cursor) := by
  obtain ⟨rest, position⟩ := cursor
  cases rest with
  | nil => simp [takeRun]
  | cons c rest =>
    have hnot : slot.holds c.code = false := h c rfl
    simp [takeRun, hnot]

/-- A run is what is handed out for its code one command at a time. -/
theorem takeRun_eq (cursor : Cursor) (slot : CodeSlot) :
    cursor.takeRun slot =
      match slot.equalInt?.bind cursor.nextIfCode? with
      | none => ([], cursor)
      | some (c, after) => (c :: (after.takeRun slot).1, (after.takeRun slot).2) := by
  cases hnext : slot.equalInt?.bind cursor.nextIfCode? with
  | none =>
    apply takeRun_of_peek?
    intro c hc
    cases hslot : slot.equalInt? with
    | none => simp [CodeSlot.holds, hslot]
    | some code =>
      rw [hslot, Option.bind_some] at hnext
      have hcode : c.code ≠ code := nextIfCode?_eq_none_iff.1 hnext c hc
      simp [CodeSlot.holds, hslot, hcode.symm]
  | some taken =>
    obtain ⟨c, after⟩ := taken
    obtain ⟨code, hslot, hcode⟩ := Option.bind_eq_some_iff.1 hnext
    obtain ⟨hnext, rfl⟩ := nextIfCode?_eq_some_iff.1 hcode
    exact takeRun_of_next? hnext (by simp [CodeSlot.holds, hslot])

/-- Nothing is lost: the run and what is left make up what there was. -/
theorem takeRun_append_rest (cursor : Cursor) (slot : CodeSlot) :
    (cursor.takeRun slot).1 ++ (cursor.takeRun slot).2.rest = cursor.rest :=
  List.takeWhile_append_dropWhile

/-- Every command of a run has the code. -/
theorem holds_of_mem_takeRun (h : c ∈ (cursor.takeRun slot).1) : slot.holds c.code = true := by
  have hall := List.all_eq_true.1 (@List.all_takeWhile _ (fun d => slot.holds d.code) cursor.rest)
  simpa using hall c h

/-- The command after a run does not have the code. -/
theorem not_holds_head_takeRun (cursor : Cursor) (slot : CodeSlot) :
    ∀ c ∈ (cursor.takeRun slot).2.rest.head?, slot.holds c.code = false := by
  intro c hc
  have hnot := List.head?_dropWhile_not (fun d : Command => slot.holds d.code) cursor.rest
  rw [show (cursor.rest.dropWhile fun d => slot.holds d.code).head? = some c from hc] at hnot
  simpa using hnot

/-- Taking a run moves forward. -/
theorem length_takeRun_rest_le (cursor : Cursor) (slot : CodeSlot) :
    (cursor.takeRun slot).2.rest.length ≤ cursor.rest.length := by
  have h := congrArg List.length (cursor.takeRun_append_rest slot)
  rw [List.length_append] at h
  omega

end Cursor

end PageOutline
