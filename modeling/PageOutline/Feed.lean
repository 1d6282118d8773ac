import PageOutline.Cursor

/-!
# Feeds

The commands of a page may come from a source that gives out one command after the other and never
takes one back. A feed looks one command ahead of such a source: a command that was looked at is
kept until it is handed out, and meanwhile the source is one command further than the feed. What is
left of the page, the feed's cursor, is the command kept and all that the source still has.
-/

namespace PageOutline

/-- What can be asked of something that hands out the commands of a page. -/
inductive Request where
  /-- The next command, which stays the next one. -/
  | peek
  /-- The next command, which is handed out. -/
  | next
  /-- The next command, which is handed out only if it has the code. -/
  | nextIfCode (slot : CodeSlot)
  /-- The index of the command handed out last. -/
  | position

/-- What comes of a request. -/
inductive Reply where
  | command (c : Command)
  /-- There is no command to look at, or none with the code. -/
  | nothing
  /-- A further command was to be handed out and there is none. -/
  | exhausted
  | position (index : Int)

/-- A command, or the given reply when there is none. -/
def Reply.ofOption (missing : Reply) : Option Command → Reply
  | some c => .command c
  | none => missing

/-- The command that a reply hands out. One that was only looked at is not handed out. -/
def Request.handsOut : Request → Reply → Option Command
  | .peek, _ => none
  | _, .command c => some c
  | _, _ => none

/-- The commands that were handed out in a row of requests and their replies. -/
def handedOut (requests : List Request) (replies : List Reply) : List Command :=
  (requests.zip replies).filterMap fun (request, reply) => request.handsOut reply

/-- Puts requests one after the other, each to what the one before left. -/
def serve {σ : Type} (answer : σ → Request → Reply × σ) : σ → List Request → List Reply × σ
  | s, [] => ([], s)
  | s, request :: requests =>
    let (reply, s) := answer s request
    let (replies, s) := serve answer s requests
    (reply :: replies, s)

namespace Cursor

/-- A move that hands out a command, or the given reply and no move. -/
def moveOr (cursor : Cursor) (missing : Reply) : Option (Command × Cursor) → Reply × Cursor
  | some (c, after) => (.command c, after)
  | none => (missing, cursor)

/-- What a cursor replies, and where it stands then. -/
def answer (cursor : Cursor) : Request → Reply × Cursor
  | .peek => (.ofOption .nothing cursor.peek?, cursor)
  | .next => cursor.moveOr .exhausted cursor.next?
  | .nextIfCode slot => cursor.moveOr .nothing (slot.equalInt?.bind cursor.nextIfCode?)
  | .position => (.position cursor.position, cursor)

end Cursor

/-- A source of commands, a command ahead of it, and the index of the command handed out last. -/
structure Feed where
  /-- What the source has not given out yet. -/
  source : List Command
  /-- The command that was looked at and not handed out. -/
  ahead? : Option Command
  position : Int

namespace Feed

/-- A feed from which nothing was asked yet. -/
def ofList (commands : List Command) : Feed := ⟨commands, none, -1⟩

/-- The next command, which is kept from then on. At the end the source is asked in vain. -/
def peek : Feed → Option Command × Feed
  | ⟨source, some c, position⟩ => (some c, ⟨source, some c, position⟩)
  | ⟨c :: source, none, position⟩ => (some c, ⟨source, some c, position⟩)
  | ⟨[], none, position⟩ => (none, ⟨[], none, position⟩)

/-- Hands out the command kept, or else the next one of the source. -/
def next : Feed → Option Command × Feed
  | ⟨source, some c, position⟩ => (some c, ⟨source, none, position + 1⟩)
  | ⟨c :: source, none, position⟩ => (some c, ⟨source, none, position + 1⟩)
  | ⟨[], none, position⟩ => (none, ⟨[], none, position⟩)

/-- Looks at the next command, and hands it out if it has the code. A command with another code is
kept. -/
def nextIfCode (feed : Feed) (slot : CodeSlot) : Option Command × Feed :=
  match feed.peek with
  | (none, feed) => (none, feed)
  | (some c, feed) => if slot.holds c.code then feed.next else (none, feed)

/-- What a feed replies, and what it is then. -/
def answer (feed : Feed) : Request → Reply × Feed
  | .peek =>
    let (c?, feed) := feed.peek
    (.ofOption .nothing c?, feed)
  | .next =>
    let (c?, feed) := feed.next
    (.ofOption .exhausted c?, feed)
  | .nextIfCode slot =>
    let (c?, feed) := feed.nextIfCode slot
    (.ofOption .nothing c?, feed)
  | .position => (.position feed.position, feed)

/-- What is left of the page. -/
def cursor (feed : Feed) : Cursor := ⟨feed.ahead?.toList ++ feed.source, feed.position⟩

/-- Looking at a command takes nothing off the page. -/
@[simp] theorem cursor_peek (feed : Feed) : feed.peek.2.cursor = feed.cursor := by
  obtain ⟨_ | ⟨c, source⟩, _ | d, position⟩ := feed <;> rfl

/-- The command looked at is the first one left, whether the feed kept it or the source has it. -/
@[simp] theorem fst_peek (feed : Feed) : feed.peek.1 = feed.cursor.peek? := by
  obtain ⟨_ | ⟨c, source⟩, _ | d, position⟩ := feed <;> rfl

/-- A command that was looked at is the one that is handed out next. -/
theorem fst_next_of_peek {feed looked : Feed} {c : Command} (h : feed.peek = (some c, looked)) :
    looked.next.1 = some c := by
  obtain ⟨_ | ⟨d, source⟩, _ | d, position⟩ := feed <;> cases h <;> rfl

end Feed

end PageOutline
