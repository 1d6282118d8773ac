import PageOutline.Feed

/-!
# Reading a page through a feed

A feed may have taken a command from its source that it has not handed out, and whoever asks it
cannot tell. In any row of requests it replies as a list of commands with an index does, and so does
the cursor that a parse goes by. The cursor is what both are compared with: it is what is left of a
feed, and it stands before the commands that the index has not passed.
-/

namespace PageOutline

/-- What a list of commands with an index replies, and the index then. Only a command that is handed
out moves the index. -/
def answerAt (commands : List Command) (k : Nat) : Request → Reply × Nat
  | .peek =>
    match commands[k]? with
    | some c => (.command c, k)
    | none => (.nothing, k)
  | .next =>
    match commands[k]? with
    | some c => (.command c, k + 1)
    | none => (.exhausted, k)
  | .nextIfCode slot =>
    match commands[k]? with
    | some c => if slot.holds c.code then (.command c, k + 1) else (.nothing, k)
    | none => (.nothing, k)
  | .position => (.position (k - 1), k)

/-- Where replies to each request agree through a view of the states, replies to a row of requests
do. -/
theorem serve_view {σ τ : Type} {answer : σ → Request → Reply × σ}
    {answer' : τ → Request → Reply × τ} (view : σ → τ)
    (h : ∀ s request,
      answer' (view s) request = ((answer s request).1, view (answer s request).2))
    (s : σ) (requests : List Request) :
    serve answer' (view s) requests =
      ((serve answer s requests).1, view (serve answer s requests).2) := by
  induction requests generalizing s with
  | nil => rfl
  | cons request requests ih => simp only [serve, h, ih]

/-! ### The cursor of a feed -/

/-- To ask for a command with a code is to look at the next one and, if it has the code, to ask for
it. -/
theorem Cursor.answer_nextIfCode (cursor : Cursor) (slot : CodeSlot) :
    cursor.answer (.nextIfCode slot) =
      match cursor.peek? with
      | some c => if slot.holds c.code then cursor.answer .next else (.nothing, cursor)
      | none => (.nothing, cursor) := by
  obtain ⟨rest, position⟩ := cursor
  cases rest with
  | nil => cases hslot : slot.equalInt? <;> simp [answer, moveOr, nextIfCode?, peek?, hslot]
  | cons c rest =>
    cases hslot : slot.equalInt? with
    | none => simp [answer, moveOr, peek?, CodeSlot.holds, hslot]
    | some code =>
      by_cases hcode : c.code = code
      · simp [answer, moveOr, nextIfCode?, peek?, next?, CodeSlot.holds, hslot, hcode]
      · simp [answer, moveOr, nextIfCode?, peek?, CodeSlot.holds, hslot, hcode, Ne.symm hcode]

namespace Feed

/-- To ask a feed for the next command is to ask the cursor of what is left for it. -/
theorem answer_next (feed : Feed) :
    feed.cursor.answer .next = ((feed.answer .next).1, (feed.answer .next).2.cursor) := by
  obtain ⟨_ | ⟨c, source⟩, _ | d, position⟩ := feed <;> rfl

/-- A feed replies as its cursor does, and what is left of it then is that cursor moved. -/
theorem answer_cursor (feed : Feed) (request : Request) :
    feed.cursor.answer request = ((feed.answer request).1, (feed.answer request).2.cursor) := by
  cases request with
  | peek => simp only [Cursor.answer, answer, fst_peek, cursor_peek]
  | next => exact feed.answer_next
  | nextIfCode slot =>
    -- The cursor is that of the feed which has looked; from there the feed asks for the command.
    rw [Cursor.answer_nextIfCode, ← fst_peek, answer, nextIfCode, ← feed.cursor_peek]
    cases hpeek : feed.peek with
    | mk c? looked =>
      cases c? with
      | none => rfl
      | some c =>
        cases hholds : slot.holds c.code with
        | false => simp [Reply.ofOption, hholds]
        | true => simp [answer_next, answer, fst_next_of_peek hpeek, Reply.ofOption, hholds]
  | position => rfl

end Feed

/-! ### The cursor at an index -/

namespace Cursor

variable (commands : List Command) (k : Nat)

/-- Where a cursor stands when as many commands of a list were handed out as the index says. -/
def ofIndex : Cursor := ⟨commands.drop k, k - 1⟩

/-- The next command after an index is the one at the index. -/
@[simp] theorem peek?_ofIndex : (ofIndex commands k).peek? = commands[k]? :=
  List.head?_drop

/-- The command at the index is handed out and the index moves by one. -/
theorem next?_ofIndex :
    (ofIndex commands k).next? = commands[k]?.map fun c => (c, ofIndex commands (k + 1)) := by
  cases hrest : commands.drop k with
  | nil =>
    have hnone : commands[k]? = none := List.getElem?_eq_none (List.drop_eq_nil_iff.1 hrest)
    rw [hnone, ofIndex, hrest]
    rfl
  | cons c rest =>
    have hsome : commands[k]? = some c := by rw [← List.head?_drop, hrest, List.head?_cons]
    have hlater : commands.drop (k + 1) = rest := by rw [← List.tail_drop, hrest, List.tail_cons]
    have hposition : (k : Int) - 1 + 1 = ((k + 1 : Nat) : Int) - 1 := by omega
    rw [hsome, ofIndex, hrest, ofIndex, hlater, next?, hposition]
    rfl

/-- A cursor at an index hands out what the list has there. -/
theorem answer_next_ofIndex :
    (ofIndex commands k).answer .next =
      ((answerAt commands k .next).1, ofIndex commands (answerAt commands k .next).2) := by
  cases hc : commands[k]? <;> simp [answer, answerAt, next?_ofIndex, moveOr, hc]

/-- A cursor at an index replies as the list with the index does, and moves as the index does. -/
theorem answer_ofIndex (request : Request) :
    (ofIndex commands k).answer request =
      ((answerAt commands k request).1, ofIndex commands (answerAt commands k request).2) := by
  cases request with
  | peek => cases hc : commands[k]? <;> simp [answer, answerAt, hc, Reply.ofOption]
  | next => exact answer_next_ofIndex commands k
  | nextIfCode slot =>
    rw [answer_nextIfCode, answer_next_ofIndex, peek?_ofIndex]
    cases hc : commands[k]? with
    | none => simp only [answerAt, hc]
    | some c => cases hholds : slot.holds c.code <;> simp [answerAt, hc, hholds]
  | position => rfl

end Cursor

/-! ### What is handed out -/

/-- What a row of requests hands out is what the first does and then what the others do. -/
theorem handedOut_cons (request : Request) (reply : Reply) (requests : List Request)
    (replies : List Reply) :
    handedOut (request :: requests) (reply :: replies) =
      (request.handsOut reply).toList ++ handedOut requests replies := by
  cases h : request.handsOut reply <;> simp [handedOut, h]

/-- A request hands out nothing and leaves the index, or hands out the command at the index and
moves past it. -/
theorem answerAt_cases (commands : List Command) (k : Nat) (request : Request) :
    (request.handsOut (answerAt commands k request).1 = none ∧
        (answerAt commands k request).2 = k) ∨
      ∃ c, commands[k]? = some c ∧ request.handsOut (answerAt commands k request).1 = some c ∧
        (answerAt commands k request).2 = k + 1 := by
  cases request with
  | peek => cases hc : commands[k]? <;> simp [answerAt, hc, Request.handsOut]
  | next =>
    cases hc : commands[k]? with
    | none => simp [answerAt, hc, Request.handsOut]
    | some c => simp [answerAt, hc, Request.handsOut]
  | nextIfCode slot =>
    cases hc : commands[k]? with
    | none => simp [answerAt, hc, Request.handsOut]
    | some c => cases hholds : slot.holds c.code <;> simp [answerAt, hc, hholds, Request.handsOut]
  | position => exact .inl ⟨rfl, rfl⟩

variable {commands : List Command} {k : Nat}

/-- One request takes the commands before the index to those before the index it leaves. -/
theorem take_answerAt (hk : k ≤ commands.length) (request : Request) :
    commands.take (answerAt commands k request).2 =
        commands.take k ++ (request.handsOut (answerAt commands k request).1).toList ∧
      (answerAt commands k request).2 ≤ commands.length := by
  obtain ⟨hnone, hstays⟩ | ⟨c, hc, hgives, hmoves⟩ := answerAt_cases commands k request
  · rw [hnone, hstays]
    exact ⟨(List.append_nil _).symm, hk⟩
  · obtain ⟨hlt, -⟩ := List.getElem?_eq_some_iff.1 hc
    rw [hgives, hmoves, List.take_add_one, hc]
    exact ⟨rfl, hlt⟩

/-- And so does a row of requests. -/
theorem take_serve (hk : k ≤ commands.length) (requests : List Request) :
    commands.take (serve (answerAt commands) k requests).2 =
        commands.take k ++ handedOut requests (serve (answerAt commands) k requests).1 ∧
      (serve (answerAt commands) k requests).2 ≤ commands.length := by
  induction requests generalizing k with
  | nil => exact ⟨(List.append_nil _).symm, hk⟩
  | cons request requests ih =>
    obtain ⟨hstep, hle⟩ := take_answerAt hk request
    obtain ⟨hrun, hend⟩ := ih hle
    refine ⟨?_, hend⟩
    rw [serve, handedOut_cons, ← List.append_assoc, ← hstep]
    exact hrun

/-- A feed over a list of commands replies to every row of requests as the list with an index does
that starts at the first command; its position is always one less than the index. What it has handed
out are the first commands of the list, as many as its position says, and what it keeps and what its
source still has are the others. The cursor of a page gives the same replies and ends where the feed
does. -/
theorem Feed.serve_ofList (commands : List Command) (requests : List Request) :
    let fed := serve answer (ofList commands) requests
    let indexed := serve (answerAt commands) 0 requests
    fed.1 = indexed.1 ∧
      fed.2.position = indexed.2 - 1 ∧
      indexed.2 ≤ commands.length ∧
      handedOut requests fed.1 = commands.take (fed.2.position + 1).toNat ∧
      fed.2.ahead?.toList ++ fed.2.source = commands.drop indexed.2 ∧
      serve Cursor.answer (.ofList commands) requests = (fed.1, fed.2.cursor) := by
  intro fed indexed
  have hfed : serve Cursor.answer (.ofList commands) requests = (fed.1, fed.2.cursor) :=
    serve_view cursor answer_cursor (ofList commands) requests
  have hindexed : serve Cursor.answer (.ofList commands) requests =
      (indexed.1, Cursor.ofIndex commands indexed.2) :=
    serve_view (Cursor.ofIndex commands) (Cursor.answer_ofIndex commands) 0 requests
  obtain ⟨hreplies, hcursor⟩ := Prod.mk.inj (hfed.symm.trans hindexed)
  obtain ⟨hrest, hposition⟩ := Cursor.mk.inj hcursor
  obtain ⟨htake, hle⟩ := take_serve (Nat.zero_le commands.length) requests
  refine ⟨hreplies, hposition, hle, ?_, hrest, hfed⟩
  rw [hreplies, hposition, Int.sub_add_cancel, Int.toNat_natCast, htake]
  rfl

/-- A page of two commands, asked beyond its end. -/
example :
    let c : Command := ⟨7, [], .int 0, by decide⟩
    let d : Command := ⟨9, [], .int 0, by decide⟩
    (serve Feed.answer (.ofList [c, d])
        [.peek, .nextIfCode (.int 7), .nextIfCode (.int 7), .position, .next, .next, .peek]).1 =
      [.command c, .command c, .nothing, .position 0, .command d, .exhausted, .nothing] := by
  rfl

end PageOutline
