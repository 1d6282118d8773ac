import PageOutline.Yaml.Node

/-!
# Documents

Reading tokens as nodes. `readText` reads one document and nothing after it and gives the number of
its outermost node. An alias gives the number of the node that its anchor names, which may be a
collection around it. Collections may nest as deep as `maxNodeDepth`.
-/

namespace PageOutline.Yaml

/-- The deepest nesting of collections. A stack holds 1000 calls, and a collection takes two of
them: that for a node and that for the parts of it. The other 40 are for what calls the reading and
for what is called within the innermost collection. -/
def maxNodeDepth : Nat := (1000 - 40) / 2

mutual

/-- Reads a node. `block` admits collections made by indentation, and `indentless` a sequence that
is indented no deeper than the mapping around it. -/
def readNode (handles : Handles) (block indentless : Bool) :
    (fuel room : Nat) → Reading → Except YamlError (Nat × Reading)
  | 0, _, _ => .error .malformed
  | _, 0, _ => .error .tooDeep
  | fuel + 1, room + 1, r =>
    match r.peek with
    | .alias name =>
      match r.anchors.lookup name with
      | some id => .ok (id, r.next)
      | none => .error .malformed
    | _ =>
      match readProperties handles r with
      | .error e => .error e
      | .ok (p, r) =>
        if p.anchor?.any fun name => (r.anchors.lookup name).isSome then .error r.misfit
        else
          let sequence := Node.sequence (p.tagOr .seq)
          let mapping := Node.mapping (p.tagOr .map)
          match r.peek with
          | .scalar text plain => .ok (r.next.define p (.scalar (p.scalarTag text plain) text))
          | .flowSequenceStart => do
            let (id, r) := r.next.define p (sequence [])
            let (items, r) ← readFlowItems handles fuel room true [] r
            return r.complete id (sequence items)
          | .flowMappingStart => do
            let (id, r) := r.next.define p (mapping [])
            let (es, r) ← readFlowEntries handles fuel room true [] r
            return r.complete id (mapping es)
          | t =>
            if indentless && t == .blockEntry then do
              let (id, r) := r.define p (sequence [])
              let (items, r) ← readItems handles true fuel room [] r
              return r.complete id (sequence items)
            else if block && t == .blockSequenceStart then do
              let (id, r) := r.next.define p (sequence [])
              let (items, r) ← readItems handles false fuel room [] r
              return r.complete id (sequence items)
            else if block && t == .blockMappingStart then do
              let (id, r) := r.next.define p (mapping [])
              let (es, r) ← readEntries handles fuel room [] r
              return r.complete id (mapping es)
            else if p.isNone then .error r.misfit
            else .ok (r.define p (.scalar (p.tagOr .null) (.text "")))
termination_by structural fuel => fuel

/-- Reads the entries of a sequence made by dashes, last first. -/
def readItems (handles : Handles) (indentless : Bool) :
    (fuel room : Nat) → List Nat → Reading → Except YamlError (List Nat × Reading)
  | 0, _, _, _ => .error .malformed
  | fuel + 1, room, items, r =>
    if r.peek == .blockEntry then
      let r := r.next
      let missing := if indentless then r.sees [.blockEntry, .key, .value, .blockEnd]
        else r.sees [.blockEntry, .blockEnd]
      if missing then
        let (id, r) := r.add .empty
        readItems handles indentless fuel room (id :: items) r
      else
        match readNode handles true false fuel room r with
        | .error e => .error e
        | .ok (id, r) => readItems handles indentless fuel room (id :: items) r
    else if indentless then .ok (items.reverse, r)
    else if r.peek == .blockEnd then .ok (items.reverse, r.next)
    else .error r.misfit
termination_by structural fuel => fuel

/-- Reads the entries of a mapping made by indentation, last first. -/
def readEntries (handles : Handles) :
    (fuel room : Nat) → List (Nat × Nat) → Reading →
      Except YamlError (List (Nat × Nat) × Reading)
  | 0, _, _, _ => .error .malformed
  | fuel + 1, room, entries, r =>
    if r.peek == .key then do
      let noNode (r : Reading) : Bool := r.sees [.key, .value, .blockEnd]
      let r := r.next
      let (key, r) ←
        if noNode r then pure (r.add .empty) else readNode handles true true fuel room r
      let (value, r) ←
        if r.peek == .value then
          let r := r.next
          if noNode r then pure (r.add .empty) else readNode handles true true fuel room r
        else pure (r.add .empty)
      readEntries handles fuel room ((key, value) :: entries) r
    else if r.peek == .blockEnd then .ok (entries.reverse, r.next)
    else .error r.misfit
termination_by structural fuel => fuel

/-- Reads the items of a sequence in brackets, last first. A pair among them is a mapping of one
entry. -/
def readFlowItems (handles : Handles) :
    (fuel room : Nat) → Bool → List Nat → Reading → Except YamlError (List Nat × Reading)
  | 0, _, _, _, _ => .error .malformed
  | fuel + 1, room, isFirst, items, r =>
    if r.peek == .flowSequenceEnd then .ok (items.reverse, r.next)
    else do
      if !isFirst && r.peek != .flowEntry then .error r.misfit
      let r := if isFirst then r else r.next
      if r.peek == .key then
        let (entry, r) ← readFlowEntry handles .flowSequenceEnd fuel (room - 1) r.next
        let (id, r) := r.add (.mapping .map [entry])
        readFlowItems handles fuel room false (id :: items) r
      else if r.peek == .flowSequenceEnd then .ok (items.reverse, r.next)
      else
        let (id, r) ← readNode handles false false fuel room r
        readFlowItems handles fuel room false (id :: items) r
termination_by structural fuel => fuel

/-- Reads the entries of a mapping in brackets, last first. -/
def readFlowEntries (handles : Handles) :
    (fuel room : Nat) → Bool → List (Nat × Nat) → Reading →
      Except YamlError (List (Nat × Nat) × Reading)
  | 0, _, _, _, _ => .error .malformed
  | fuel + 1, room, isFirst, entries, r =>
    if r.peek == .flowMappingEnd then .ok (entries.reverse, r.next)
    else do
      if !isFirst && r.peek != .flowEntry then .error r.misfit
      let r := if isFirst then r else r.next
      if r.peek == .key then
        let (entry, r) ← readFlowEntry handles .flowMappingEnd fuel room r.next
        readFlowEntries handles fuel room false (entry :: entries) r
      else if r.peek == .flowMappingEnd then .ok (entries.reverse, r.next)
      else
        let (key, r) ← readNode handles false false fuel room r
        let (value, r) := r.add .empty
        readFlowEntries handles fuel room false ((key, value) :: entries) r
termination_by structural fuel => fuel

/-- Reads a key in brackets of the given end and the value behind it; either may be missing. -/
def readFlowEntry (handles : Handles) (close : Token) :
    (fuel room : Nat) → Reading → Except YamlError ((Nat × Nat) × Reading)
  | 0, _, _ => .error .malformed
  | fuel + 1, room, r => do
    let (key, r) ←
      if r.sees [.value, .flowEntry, close] then pure (r.add .empty)
      else readNode handles false false fuel room r
    let (value, r) ←
      if r.peek == .value then
        let r := r.next
        if r.sees [.flowEntry, close] then pure (r.add .empty)
        else readNode handles false false fuel room r
      else pure (r.add .empty)
    return ((key, value), r)
termination_by structural fuel => fuel

end

/-- Reads directives and gives the handles they define besides the standard ones. -/
def readDirectives : (fuel : Nat) → Bool → Handles → Reading →
    Except YamlError (Handles × Reading)
  | 0, _, handles, r => .ok (handles, r)
  | fuel + 1, versioned, handles, r =>
    match r.peek with
    | .version major =>
      if versioned || major != 1 then .error .malformed
      else readDirectives fuel true handles r.next
    | .tagHandle handle stem =>
      if (handles.lookup handle).isSome then .error .malformed
      else readDirectives fuel versioned ((handle, stem) :: handles) r.next
    | .otherDirective => readDirectives fuel versioned handles r.next
    | _ => .ok (handles ++ standardHandles, r)

/-- Moves past the marks that end documents. -/
def skipEnds (r : Reading) : Reading :=
  { r with tokens := r.tokens.dropWhile (· == .documentEnd) }

/-- Reads the node of the document that begins here, if there is one. -/
def readDocument (fuel : Nat) (r : Reading) : Except YamlError (Option Nat × Reading) := do
  let isDirective (t : Token) : Bool := match t with
    | .version _ => true
    | .tagHandle _ _ => true
    | .otherDirective => true
    | _ => false
  if !isDirective r.peek && !r.sees [.documentStart, .streamEnd] then
    let (id, r) ← readNode standardHandles true false fuel maxNodeDepth r
    return (some id, r)
  let r := skipEnds r
  if r.peek == .streamEnd then return (none, r)
  let (handles, r) ← readDirectives fuel false [] r
  if r.peek != .documentStart then .error r.misfit
  let r := r.next
  if isDirective r.peek || r.sees [.documentStart, .documentEnd, .streamEnd] then
    let (id, r) := r.add .empty
    return (some id, r)
  let (id, r) ← readNode handles true false fuel maxNodeDepth r
  return (some id, r)

/-- The nodes of a text that holds at most one document, and the number of its outermost node. -/
def readText (tokens : List Token) : Except YamlError (Option Nat × Graph) := do
  -- every call but the first of a collection without indentation takes a token
  let fuel := 4 * tokens.length + 4
  let (id?, r) ← readDocument fuel (.start tokens)
  let r := skipEnds r
  if r.peek == .streamEnd then return (id?, r.graph)
  -- a second document is refused, but not before its directives have been read
  let (_, r) ← readDirectives fuel false [] r
  .error r.misfit

end PageOutline.Yaml
