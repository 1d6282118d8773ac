import PageOutline.Page.Parser

/-!
# Sessions

A session works on one arena, one page and one collector of issues step by step. Nodes are named by
values there: a truth value names the node zero or one, and the nodes made under it show it as their
parent.
-/

namespace PageOutline

/-- The number of the node that a value names; values that name none have one that no node has. -/
def nodeNumber (id : Value) : Int := id.asInt?.getD (-1)

/-- What the steps of a session work on. -/
structure Session where
  arena : Arena
  root? : Option Nat
  cursor : Cursor
  collector? : Option Diagnostics
  log : Array LogRecord
  database : Database
  matching : Matching
  /-- The nodes whose parent was named by a truth value. -/
  flagged : List Nat

namespace Session

/-- The arena of some detached nodes, with a root planted behind them or without one. -/
def plant (detached : List Command) (rooted : Bool) : Arena × Option Nat :=
  let arena := detached.foldl (fun a c => (a.newNode c).2) Arena.empty
  if rooted then
    let t := Tree.plant arena
    (t.arena, some t.root)
  else (arena, none)

/-- The issues so far. -/
def issues (s : Session) : Diagnostics := s.collector?.getD (.empty true)

/-- The tree below the root, or below the first node if there is no root. -/
def tree (s : Session) : Tree := ⟨s.arena, s.root?.getD 0⟩

/-- The parent of a node as it was named. -/
def parentOf? (s : Session) (n : Node) : Option Value :=
  n.parent?.map fun p => if s.flagged.contains n.id then .bool (p != 0) else .int p

/-- Marks the children of `parent` among the nodes from a number on, if a truth value names it. -/
def mark (s : Session) (parent : Value) (first : Nat) : Session :=
  match parent with
  | .bool b =>
    let made := (s.arena.nodes.extract first s.arena.size).toList.filter fun n =>
      n.parent? == some (if b then 1 else 0)
    { s with flagged := s.flagged ++ made.map (·.id) }
  | _ => s

/-- Makes a node as the last child of another. -/
def append (s : Session) (parent : Value) (c : Command) : Except NodeNotFound Nat × Session :=
  let first := s.arena.size
  let ⟨arena, root?, cursor, collector?, log, database, matching, flagged⟩ := s
  let (r, arena) := arena.append (nodeNumber parent) c
  let s : Session := ⟨arena, root?, cursor, collector?, log, database, matching, flagged⟩
  (r, s.mark parent first)

/-- What a descent from a node hands out, and how it ends. The first id is handed out as it was
named. -/
def descent (s : Session) (id : Value) : List Value × Except NodeNotFound Unit :=
  let (ids, ending) := s.arena.descent (nodeNumber id)
  (id :: ids.tail.map .int, ending)

/-- Runs part of a parse under a parent. Without a collector the issues go to one of their own. -/
def run {α : Type} (s : Session) (parent : Value) (step : ParseState → α × ParseState) :
    α × Session :=
  let first := s.arena.size
  let issues := s.issues
  let ⟨arena, root?, cursor, collector?, log, database, matching, flagged⟩ := s
  let (r, ⟨arena, cursor, issues, log⟩) := step ⟨arena, cursor, issues, log⟩
  let collector? := collector?.map fun _ => issues
  let s : Session := ⟨arena, root?, cursor, collector?, log, database, matching, flagged⟩
  (r, s.mark parent first)

/-- Keeps an issue. -/
def record (s : Session) (d : Diagnostic) : Session := (s.run .null fun p => ((), p.record d)).2

/-- Parses a command with what it owns. -/
def parse (s : Session) (parent : Value) (c : Command) : Except PageError (Option Nat) × Session :=
  s.run parent fun p => p.parseCommand s.database s.matching maxNesting (nodeNumber parent) c

/-- Parses the commands left one by one, at most as many as the first argument says. -/
def parseEach (parent : Value) : Nat → Session → Except PageError (List (Option Nat)) × Session
  | 0, s => (.ok [], s)
  | n + 1, s =>
    match s.cursor.next? with
    | none => (.ok [], s)
    | some (c, cursor) =>
      match { s with cursor }.parse parent c with
      | (.error e, s) => (.error e, s)
      | (.ok id, s) =>
        let (ids, s) := parseEach parent n s
        (ids.map (id :: ·), s)

/-- Parses all commands left. -/
def parseAll (s : Session) (parent : Value) : Except PageError (List (Option Nat)) × Session :=
  parseEach parent s.cursor.rest.length s

end Session

end PageOutline
