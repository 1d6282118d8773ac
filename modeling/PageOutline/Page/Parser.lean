import PageOutline.Page.Lines

/-!
# Parsing pages

A page is a flat list in which codes alone mark the nesting. A command that opens a scope owns the
commands up to its terminator; delimiters within start new arms under it. A text command takes in
the continuation lines that follow it, and a route keeps the entries that follow it as companions.
Everything else is a leaf. Each command of a page is pulled exactly once, from left to right.
-/

namespace PageOutline

/-- The most scopes that may be open at once. A stack holds 1000 calls, and an open scope takes two
of them: that for the command which opens it and that for reading what it holds. The other 40 are
for what calls the parse and for what is called within the innermost scope; this is the room of a
caller that stands near the bottom of the stack. -/
def maxNesting : Nat := (1000 - 40) / 2

/-- A scope that is open: its node, the node that receives commands at the moment, and what opened
it. -/
structure Scope where
  node : Nat
  arm : Nat
  kind : ScopeKind
  opener : Code
  position : Int

/-- What became of a command that was placed. -/
inductive Placement where
  | skipped
  | leaf (id : Nat)
  | opened (scope : Scope)

namespace ParseState

/-- Joins the continuation lines that follow to the text of a node's command. They are taken in one
run here; `joinText_of_next?` says what one line does. -/
def joinText (s : ParseState) (id : Nat) (c : Command) (continuation : CodeSlot) :
    Except PageError Placement × ParseState :=
  let ⟨arena, cursor, diagnostics, log⟩ := s
  let (lines, after) := cursor.takeRun continuation
  let s := (malformedLines c (cursor.position + 1) lines).foldl record
    ⟨arena, after, diagnostics, log⟩
  match c.joinLines lines with
  | .error (.noParameter index) => (.error (.noParameter index), s)
  | .error _ => (.error (.noParameter textParameter), s)
  | .ok joined =>
    let ⟨arena, cursor, diagnostics, log⟩ := s
    match arena.setCommand id joined with
    | (.ok (), arena) => (.ok (.leaf id), ⟨arena, cursor, diagnostics, log⟩)
    | (.error e, arena) => (.error (.nodeNotFound e.id), ⟨arena, cursor, diagnostics, log⟩)

section JoinText

variable {s : ParseState} {id : Nat} {c : Command} {continuation : CodeSlot}

/-- A continuation line that can be joined is joined to the text, and one that cannot is an issue at
its own index. Then the lines after it are joined. -/
theorem joinText_of_next? {line : Command} {after : Cursor}
    (hnext : s.cursor.next? = some (line, after)) (hholds : continuation.holds line.code = true) :
    s.joinText id c continuation =
      match c.joinLine? line with
      | some c => { s with cursor := after }.joinText id c continuation
      | none =>
        ({ s with cursor := after }.record (malformedLine c after.position line)).joinText id c
          continuation := by
  obtain ⟨arena, cursor, diagnostics, log⟩ := s
  have hposition : after.position = cursor.position + 1 := Cursor.position_of_next? hnext
  cases hjoin : c.joinLine? line with
  | some joined =>
    simp only [joinText, Cursor.takeRun_of_next? hnext hholds, Command.joinLines_eq,
      Command.joined_cons_of_some hjoin, malformedLines_cons_of_some hjoin, hposition]
  | none =>
    simp only [joinText, Cursor.takeRun_of_next? hnext hholds, Command.joinLines_eq,
      Command.joined_cons_of_none hjoin, malformedLines_cons_of_none hjoin, hposition,
      List.foldl_cons, record]

/-- Before a command that is no continuation line the text stays as it is. -/
theorem joinText_of_peek? (h : ∀ line ∈ s.cursor.peek?, continuation.holds line.code = false) :
    s.joinText id c continuation =
      match s.arena.setCommand id c with
      | (.ok (), arena) => (.ok (.leaf id), { s with arena })
      | (.error e, arena) => (.error (.nodeNotFound e.id), { s with arena }) := by
  simp only [joinText, Cursor.takeRun_of_peek? h, Command.joinLines_eq, Command.joined_nil,
    malformedLines, List.foldl_nil]

end JoinText

/-- Keeps commands as companions of a node. -/
def addCompanions (s : ParseState) (id : Nat) : List Command → Except PageError Unit × ParseState
  | [] => (.ok (), s)
  | c :: rest =>
    let ⟨arena, cursor, diagnostics, log⟩ := s
    match arena.addCompanion id c with
    | (.ok (), arena) => addCompanions ⟨arena, cursor, diagnostics, log⟩ id rest
    | (.error e, arena) => (.error (.nodeNotFound e.id), ⟨arena, cursor, diagnostics, log⟩)

/-- Keeps the entries that follow a route as companions of its node. They are taken in one run here;
`keepEntries_of_next?` says what one entry does. -/
def keepEntries (s : ParseState) (id : Nat) (continuation : CodeSlot) :
    Except PageError Placement × ParseState :=
  let ⟨arena, cursor, diagnostics, log⟩ := s
  let (entries, after) := cursor.takeRun continuation
  match addCompanions ⟨arena, after, diagnostics, log⟩ id entries with
  | (.ok (), s) => (.ok (.leaf id), s)
  | (.error e, s) => (.error e, s)

section KeepEntries

variable {s : ParseState} {id : Nat} {continuation : CodeSlot}

/-- An entry is kept as a companion of a node that there is, and then the entries after it are. -/
theorem keepEntries_of_next? {entry : Command} {after : Cursor} {arena : Arena}
    (hnext : s.cursor.next? = some (entry, after)) (hholds : continuation.holds entry.code = true)
    (hadd : s.arena.addCompanion id entry = (.ok (), arena)) :
    s.keepEntries id continuation =
      { s with arena, cursor := after }.keepEntries id continuation := by
  simp only [keepEntries, Cursor.takeRun_of_next? hnext hholds, addCompanions, hadd]

/-- Before a command that is no entry nothing is kept. -/
theorem keepEntries_of_peek? (h : ∀ entry ∈ s.cursor.peek?, continuation.holds entry.code = false) :
    s.keepEntries id continuation = (.ok (.leaf id), s) := by
  simp only [keepEntries, Cursor.takeRun_of_peek? h, addCompanions]

end KeepEntries

/-- Places the command pulled last under `parent`, together with the lines or entries that belong to
it. Padding is skipped; a command without a descriptor becomes a leaf and an issue. -/
def place (db : Database) (s : ParseState) (parent : Int) (c : Command) :
    Except PageError Placement × ParseState :=
  if c.isSentinel then (.ok .skipped, s)
  else
    match s.append parent c with
    | (.error e, s) => (.error e, s)
    | (.ok id, s) =>
      match db.get? c.code with
      | none =>
        let issue := ⟨.unknownCode, c.code, s.cursor.position, "no descriptor, kept as a leaf"⟩
        (.ok (.leaf id), s.record issue)
      | some d =>
        match d.kind with
        | .scope kind => (.ok (.opened ⟨id, id, kind, c.code, s.cursor.position⟩), s)
        | .text continuation => s.joinText id c continuation
        | .route continuation => s.keepEntries id continuation
        | .plain _ => (.ok (.leaf id), s)
        | .mark => (.ok (.leaf id), s)

/-- Reads the commands of an open scope up to its terminator. `length` is the number of commands
still to come and `room` the number of scopes that may yet be opened within. -/
def fillScope (db : Database) (matching : Matching) :
    (length room : Nat) → Scope → ParseState → Except PageError Unit × ParseState
  | 0, _, scope, s =>
    (.error (.unterminated scope.opener scope.position scope.kind.terminator.code), s)
  | length + 1, room, scope, s =>
    match s.pull? with
    | none => (.error (.unterminated scope.opener scope.position scope.kind.terminator.code), s)
    | some (c, s) =>
      if scope.kind.terminator.code.holds c.code then (.ok (), s)
      else if (scope.kind.findBranch? matching c).isSome then
        match s.append scope.node c with
        | (.error e, s) => (.error e, s)
        | (.ok arm, s) => fillScope db matching length room { scope with arm } s
      else
        match s.place db scope.arm c with
        | (.error e, s) => (.error e, s)
        | (.ok (.opened inner), s) =>
          match room with
          | 0 => (.error (.nestingTooDeep s.cursor.position), s)
          | room + 1 =>
            match fillScope db matching length room inner s with
            | (.error e, s) => (.error e, s)
            | (.ok (), s) => fillScope db matching length (room + 1) scope s
        | (.ok _, s) => fillScope db matching length room scope s

/-- Places the command pulled last under `parent` with all that it owns. Gives the id of its node,
or nothing for padding. -/
def parseCommand (db : Database) (matching : Matching) (room : Nat) (s : ParseState)
    (parent : Int) (c : Command) : Except PageError (Option Nat) × ParseState :=
  match s.place db parent c with
  | (.error e, s) => (.error e, s)
  | (.ok .skipped, s) => (.ok none, s)
  | (.ok (.leaf id), s) => (.ok (some id), s)
  | (.ok (.opened scope), s) =>
    match room with
    | 0 => (.error (.nestingTooDeep s.cursor.position), s)
    | room + 1 =>
      match fillScope db matching s.cursor.rest.length room scope s with
      | (.error e, s) => (.error e, s)
      | (.ok (), s) => (.ok (some scope.node), s)

/-- Parses commands under `parent` until none is left. `length` is the number of commands still to
come. The ids of the nodes made come last first. -/
def parseAll (db : Database) (matching : Matching) (room : Nat) (parent : Int) :
    (length : Nat) → List (Option Nat) → ParseState →
      Except PageError (List (Option Nat)) × ParseState
  | 0, ids, s => (.ok ids, s)
  | length + 1, ids, s =>
    match s.pull? with
    | none => (.ok ids, s)
    | some (c, s) =>
      match parseCommand db matching room s parent c with
      | (.error e, s) => (.error e, s)
      | (.ok id?, s) => parseAll db matching room parent length (id? :: ids) s

/-- Parses all commands still to come under `parent`. Gives what `parseCommand` gives for each. -/
def parseRest (db : Database) (matching : Matching) (room : Nat) (s : ParseState) (parent : Int) :
    Except PageError (List (Option Nat)) × ParseState :=
  match parseAll db matching room parent s.cursor.rest.length [] s with
  | (.ok ids, s) => (.ok ids.reverse, s)
  | (.error e, s) => (.error e, s)

end ParseState

/-- What a parse of a page leaves: a tree or the reason why there is none, the collector and the
log. -/
structure PageResult where
  outcome : Except PageError Tree
  diagnostics : Diagnostics
  log : Array LogRecord

/-- Parses a page into a tree of its own. `room` bounds how many scopes may be open at once. -/
def parsePageWithin (room : Nat) (db : Database) (matching : Matching)
    (diagnostics : Diagnostics) (log : Array LogRecord) (page : List Command) : PageResult :=
  let tree := Tree.empty
  let start : ParseState := ⟨tree.arena, .ofList page, diagnostics, log⟩
  match start.parseRest db matching room tree.root with
  | (.error e, s) => ⟨.error e, s.diagnostics, s.log⟩
  | (.ok _, s) =>
    let tree : Tree := { tree with arena := s.arena }
    let summary := .pageParsed (s.cursor.position + 1) tree.size s.diagnostics.entries.size
    ⟨.ok tree, s.diagnostics, s.log.push summary⟩

/-- Parses a page with the issues going to a given collector. -/
def parsePage (db : Database) (matching : Matching) (diagnostics : Diagnostics)
    (log : Array LogRecord) (page : List Command) : PageResult :=
  parsePageWithin maxNesting db matching diagnostics log page

/-- What a parse of several pages leaves. -/
structure PagesResult where
  outcome : Except PageError (List Tree)
  diagnostics : Diagnostics
  log : Array LogRecord

/-- Parses pages one after the other with one collector, up to the first that fails. Each page has
the room that it has alone; what the loop over the pages takes of the stack is left aside. -/
def parsePages (db : Database) (matching : Matching) :
    Diagnostics → Array LogRecord → List (List Command) → PagesResult
  | diagnostics, log, [] => ⟨.ok [], diagnostics, log⟩
  | diagnostics, log, page :: pages =>
    match parsePage db matching diagnostics log page with
    | ⟨.error e, diagnostics, log⟩ => ⟨.error e, diagnostics, log⟩
    | ⟨.ok tree, diagnostics, log⟩ =>
      let rest := parsePages db matching diagnostics log pages
      { rest with outcome := rest.outcome.map (tree :: ·) }

/-- Parses pages one after the other, each with a collector of its own, up to the first that
fails. -/
def parsePagesApart (db : Database) (matching : Matching) (logsUnknown : Bool) :
    Array LogRecord → List (List Command) →
      Except PageError (List (Tree × Diagnostics)) × Array LogRecord
  | log, [] => (.ok [], log)
  | log, page :: pages =>
    match parsePage db matching (.empty logsUnknown) log page with
    | ⟨.error e, _, log⟩ => (.error e, log)
    | ⟨.ok tree, diagnostics, log⟩ =>
      let (rest, log) := parsePagesApart db matching logsUnknown log pages
      (rest.map ((tree, diagnostics) :: ·), log)

end PageOutline
