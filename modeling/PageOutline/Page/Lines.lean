import PageOutline.Page.State

/-!
# Joining continuation lines one at a time

A text command takes in a whole run of continuation lines at once. Here the same is done line by
line: `Command.joinLine?` adds one line, and both the joined command and the issues of a run are
what its lines give one after the other.
-/

namespace PageOutline

/-- The text of a text value made of code points. -/
@[simp] theorem Value.textPoints?_ofPoints (ps : List Nat) :
    (Value.ofPoints ps).textPoints? = some ps := by
  unfold Value.ofPoints
  split
  next s h => simp [Value.textPoints?, Text.map_toNat_of_ofPoints? h]
  next => rfl

/-- Values with a text are all of one kind. -/
theorem Value.kindName_of_textPoints? {v : Value} {ps : List Nat} (h : v.textPoints? = some ps) :
    v.kindName = "str" := by
  cases v <;> first | rfl | cases h

namespace Command

/-- The command with another text in the place of its own. -/
def withText (c : Command) (ps : List Nat) : Command :=
  c.withParameters (.ofPoints ps :: c.parameters.tail)

/-- The command with one line joined to its text; nothing if either has no text. -/
def joinLine? (opener line : Command) : Option Command :=
  match opener.text?, line.text? with
  | some s, some t => some (opener.withText (s ++ lineBreak :: t))
  | _, _ => none

/-- The command with a run of lines joined to its text. Lines without a text are left out. -/
def joined (opener : Command) (lines : List Command) : Command :=
  match opener.text?, lines.filterMap text? with
  | some s, t :: ts => opener.withText ([lineBreak].intercalate (s :: t :: ts))
  | _, _ => opener

/-- Another text leaves the code of a command. -/
@[simp] theorem code_withText (c : Command) (ps : List Nat) : (c.withText ps).code = c.code := rfl

/-- A line that is joined leaves the code of the opening command. -/
theorem code_of_joinLine? {opener line opener' : Command}
    (h : opener.joinLine? line = some opener') : opener'.code = opener.code := by
  unfold joinLine? at h
  split at h
  · cases h
    rfl
  · cases h

/-- A text that was put into a command is its text. -/
@[simp] theorem text?_withText (c : Command) (ps : List Nat) : (c.withText ps).text? = some ps := by
  simp [text?, withText, withParameters, parameter, parameter?, textParameter]

/-- Of two texts put into a command one after the other the last one stays. -/
theorem withText_withText (c : Command) (ps qs : List Nat) :
    (c.withText ps).withText qs = c.withText qs := rfl

/-- Only a command with a parameter has a text. -/
theorem parameters_eq_cons_of_text? {c : Command} {ps : List Nat} (h : c.text? = some ps) :
    ∃ v vs, c.parameters = v :: vs := by
  cases hps : c.parameters with
  | nil => simp [text?, parameter, parameter?, textParameter, hps, Value.textPoints?] at h
  | cons v vs => exact ⟨v, vs, rfl⟩

/-- The text of a command can be replaced, so joining lines never fails. -/
theorem joinLines_eq (opener : Command) (lines : List Command) :
    opener.joinLines lines = .ok (opener.joined lines) := by
  unfold joinLines joined
  cases hs : opener.text? with
  | none => rfl
  | some s =>
    cases lines.filterMap text? with
    | nil => rfl
    | cons t ts =>
      obtain ⟨v, vs, hvs⟩ := parameters_eq_cons_of_text? hs
      rw [show textParameter = 0 from rfl]
      simp [withParameter_zero _ v vs _ hvs, withText, hvs]

/-- Without lines the command stays as it is. -/
@[simp] theorem joined_nil (opener : Command) : opener.joined [] = opener := by
  unfold joined
  split <;> simp_all

/-- A line that can be joined is joined first. -/
theorem joined_cons_of_some {opener line opener' : Command}
    (h : opener.joinLine? line = some opener') (lines : List Command) :
    opener.joined (line :: lines) = opener'.joined lines := by
  unfold joinLine? at h
  split at h
  next s t hs ht =>
    cases h
    unfold joined
    rw [List.filterMap_cons_some ht, hs, text?_withText]
    cases lines.filterMap text? with
    | nil => simp [List.intercalate, List.intersperse]
    | cons u us => simp [List.intercalate, List.intersperse, withText_withText]
  next => cases h

/-- A line that cannot be joined is left out. -/
theorem joined_cons_of_none {opener line : Command} (h : opener.joinLine? line = none)
    (lines : List Command) : opener.joined (line :: lines) = opener.joined lines := by
  unfold joined
  cases hs : opener.text? with
  | none => simp
  | some s =>
    have ht : line.text? = none := by
      cases ht : line.text? with
      | none => rfl
      | some t => simp [joinLine?, hs, ht] at h
    rw [List.filterMap_cons_none ht]

/-- Joining lines changes no more than the first parameter. -/
theorem joined_eq_or (opener : Command) (lines : List Command) :
    opener.joined lines = opener ∨
      opener.text?.isSome ∧ (∃ line ∈ lines, line.text?.isSome) ∧
        ∃ ps, opener.joined lines = opener.withText ps := by
  unfold joined
  split
  next s t ts hs hts =>
    right
    have ht : t ∈ lines.filterMap text? := by simp [hts]
    obtain ⟨line, hline, htext⟩ := List.mem_filterMap.1 ht
    exact ⟨by simp [hs], ⟨line, hline, by simp [htext]⟩, _, rfl⟩
  next => exact Or.inl rfl

/-- A line that can be joined may be joined last. -/
theorem joined_concat_of_some {opener line opener' : Command} {lines : List Command}
    (h : (opener.joined lines).joinLine? line = some opener') :
    opener.joined (lines ++ [line]) = opener' := by
  induction lines generalizing opener with
  | nil =>
    rw [joined_nil] at h
    rw [List.nil_append, joined_cons_of_some h, joined_nil]
  | cons first lines ih =>
    rw [List.cons_append]
    cases hfirst : opener.joinLine? first with
    | some next =>
      rw [joined_cons_of_some hfirst] at h ⊢
      exact ih h
    | none =>
      rw [joined_cons_of_none hfirst] at h ⊢
      exact ih h

/-- Joining lines neither gives a command a text nor takes it away. -/
@[simp] theorem isSome_text?_joined (opener : Command) (lines : List Command) :
    (opener.joined lines).text?.isSome = opener.text?.isSome := by
  rcases opener.joined_eq_or lines with h | ⟨hsome, -, ps, h⟩
  · rw [h]
  · rw [h, text?_withText, hsome]
    rfl

/-- Joining lines leaves the code of a command. -/
@[simp] theorem code_joined (opener : Command) (lines : List Command) :
    (opener.joined lines).code = opener.code := by
  rcases opener.joined_eq_or lines with h | ⟨-, -, ps, h⟩ <;> rw [h]
  rfl

/-- Joining lines leaves the number of parameters. -/
@[simp] theorem length_parameters_joined (opener : Command) (lines : List Command) :
    (opener.joined lines).parameters.length = opener.parameters.length := by
  rcases opener.joined_eq_or lines with h | ⟨hsome, -, ps, h⟩
  · rw [h]
  · obtain ⟨s, hs⟩ := Option.isSome_iff_exists.1 hsome
    obtain ⟨v, vs, hvs⟩ := parameters_eq_cons_of_text? hs
    simp [h, withText, withParameters, hvs]

/-- Joining lines leaves the indentation that the editor recorded. -/
@[simp] theorem indent_joined (opener : Command) (lines : List Command) :
    (opener.joined lines).indent = opener.indent := by
  rcases opener.joined_eq_or lines with h | ⟨-, -, ps, h⟩ <;> rw [h]
  rfl

/-- Joining lines leaves all parameters after the first. -/
@[simp] theorem tail_parameters_joined (opener : Command) (lines : List Command) :
    (opener.joined lines).parameters.tail = opener.parameters.tail := by
  rcases opener.joined_eq_or lines with h | ⟨-, -, ps, h⟩ <;> rw [h]
  rfl

/-- Lines that cannot be joined can be left out. -/
theorem joined_filter (opener : Command) (lines : List Command) :
    opener.joined (lines.filter fun line => opener.text?.isSome && line.text?.isSome) =
      opener.joined lines := by
  unfold joined
  cases hs : opener.text? with
  | none => rfl
  | some s =>
    have hlines : (lines.filter fun line => line.text?.isSome).filterMap text? =
        lines.filterMap text? := by
      rw [List.filterMap_filter]
      congr 1
      funext line
      cases line.text? <;> rfl
    simp only [Option.isSome_some, Bool.true_and, hlines]

/-- Texts are joined one to a line. -/
theorem text?_joined {opener : Command} {lines : List Command}
    (h : ∀ c ∈ opener :: lines, c.text?.isSome) :
    (opener.joined lines).text? =
      some ([lineBreak].intercalate ((opener :: lines).filterMap text?)) := by
  obtain ⟨s, hs⟩ := Option.isSome_iff_exists.1 (h opener (by simp))
  cases lines with
  | nil => simp [hs, List.intercalate]
  | cons line lines =>
    obtain ⟨t, ht⟩ := Option.isSome_iff_exists.1 (h line (by simp))
    unfold joined
    rw [List.filterMap_cons_some ht, List.filterMap_cons_some hs, List.filterMap_cons_some ht, hs]
    exact text?_withText ..

end Command

/-- What is said of a line depends on the kind of the text that it cannot be joined to. -/
theorem malformedLineMessage_congr {text text' : Value} (h : text'.kindName = text.kindName)
    (line : Value) (opener : Code) :
    malformedLineMessage line text' opener = malformedLineMessage line text opener := by
  unfold malformedLineMessage
  rw [h]

/-- What is said of a line depends on the code of the opening command and on nothing else, once that
has a text. -/
theorem malformedLine_congr {opener opener' : Command} {ps ps' : List Nat}
    (hs : opener.text? = some ps) (hs' : opener'.text? = some ps')
    (hcode : opener'.code = opener.code) (position : Int) (line : Command) :
    malformedLine opener' position line = malformedLine opener position line := by
  have hkind : (opener.parameter textParameter .null).kindName = "str" :=
    Value.kindName_of_textPoints? hs
  have hkind' : (opener'.parameter textParameter .null).kindName = "str" :=
    Value.kindName_of_textPoints? hs'
  unfold malformedLine
  dsimp only
  rw [hcode, malformedLineMessage_congr (hkind'.trans hkind.symm)]

/-- Once the opening command has a text, the issues of a run of lines do not depend on what the text
is. -/
theorem malformedLines_congr {opener opener' : Command} {ps ps' : List Nat}
    (hs : opener.text? = some ps) (hs' : opener'.text? = some ps')
    (hcode : opener'.code = opener.code) (position : Int) (lines : List Command) :
    malformedLines opener' position lines = malformedLines opener position lines := by
  induction lines generalizing position with
  | nil => rfl
  | cons line lines ih =>
    rw [malformedLines, malformedLines, ih, malformedLine_congr hs hs' hcode, hs, hs']
    rfl

/-- A line that can be joined is no issue. -/
theorem malformedLines_cons_of_some {opener line opener' : Command}
    (h : opener.joinLine? line = some opener') (position : Int) (lines : List Command) :
    malformedLines opener position (line :: lines) =
      malformedLines opener' (position + 1) lines := by
  unfold Command.joinLine? at h
  split at h
  next s t hs ht =>
    cases h
    rw [malformedLines_congr hs (Command.text?_withText ..) (Command.code_withText ..)]
    simp [malformedLines, hs, ht]
  next => cases h

/-- A line that cannot be joined is an issue at its own index. -/
theorem malformedLines_cons_of_none {opener line : Command} (h : opener.joinLine? line = none)
    (position : Int) (lines : List Command) :
    malformedLines opener position (line :: lines) =
      malformedLine opener position line :: malformedLines opener (position + 1) lines := by
  unfold Command.joinLine? at h
  split at h
  next => cases h
  next hnone =>
    rw [malformedLines, if_neg]
    intro hboth
    obtain ⟨s, hs⟩ := Option.isSome_iff_exists.1 (Bool.and_eq_true_iff.1 hboth).1
    obtain ⟨t, ht⟩ := Option.isSome_iff_exists.1 (Bool.and_eq_true_iff.1 hboth).2
    exact hnone s t hs ht

/-- Lines that are all texts are no issues. -/
theorem malformedLines_eq_nil {opener : Command} {lines : List Command}
    (h : ∀ c ∈ opener :: lines, c.text?.isSome) (position : Int) :
    malformedLines opener position lines = [] := by
  induction lines generalizing position with
  | nil => rfl
  | cons line lines ih =>
    rw [malformedLines, if_pos (by simp [h])]
    refine ih (fun c hc => h c ?_) _
    rcases List.mem_cons.1 hc with rfl | hc
    · exact List.mem_cons_self
    · exact List.mem_cons_of_mem _ (List.mem_cons_of_mem _ hc)

end PageOutline
