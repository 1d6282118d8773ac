import PageOutline.Page.Parser
import PageOutline.Proofs.Growth

/-!
# Forests

A forest is the nesting that a flat page stands for. `flatten` writes it out as a page, `nodes` says
which nodes it has when they are numbered in the order of the page, and `Fits` says when a page that
is written out can be read back: every command must be read as what it was written for.
-/

namespace PageOutline

/-- The two kinds of sequences within a scope: commands that stand one after the other, and the arms
that follow the commands before the first delimiter. -/
inductive Layer where
  | body
  | arms

/-- Commands as they nest. In a body each item is followed by the rest of the body; in a sequence of
arms each delimiter has a body of its own. -/
inductive Forest : Layer → Type where
  | nil {layer : Layer} : Forest layer
  | padding (c : Command) (rest : Forest .body) : Forest .body
  | leaf (c : Command) (rest : Forest .body) : Forest .body
  /-- A text command with its continuation lines. -/
  | text (c : Command) (lines : List Command) (rest : Forest .body) : Forest .body
  /-- A route with the entries that it drags behind it. -/
  | route (c : Command) (entries : List Command) (rest : Forest .body) : Forest .body
  /-- A scope: the opening command, what comes before the first delimiter, the arms and the
  terminator. -/
  | scope (c : Command) (body : Forest .body) (arms : Forest .arms) (terminator : Command)
      (rest : Forest .body) : Forest .body
  | arm (delimiter : Command) (body : Forest .body) (rest : Forest .arms) : Forest .arms

namespace Forest

/-- The page that stands for a forest. -/
def flatten : {layer : Layer} → Forest layer → List Command
  | _, nil => []
  | _, padding c rest => c :: rest.flatten
  | _, leaf c rest => c :: rest.flatten
  | _, text c lines rest => c :: (lines ++ rest.flatten)
  | _, route c entries rest => c :: (entries ++ rest.flatten)
  | _, scope c body arms terminator rest =>
    c :: (body.flatten ++ (arms.flatten ++ terminator :: rest.flatten))
  | _, arm delimiter body rest => delimiter :: (body.flatten ++ rest.flatten)

/-- The number of nodes: one for each command but padding, lines, entries and terminators. -/
def count : {layer : Layer} → Forest layer → Nat
  | _, nil => 0
  | _, padding _ rest => rest.count
  | _, leaf _ rest => rest.count + 1
  | _, text _ _ rest => rest.count + 1
  | _, route _ _ rest => rest.count + 1
  | _, scope _ body arms _ rest => body.count + arms.count + rest.count + 1
  | _, arm _ body rest => body.count + rest.count + 1

/-- The number of scopes that lie within each other. -/
def depth : {layer : Layer} → Forest layer → Nat
  | _, nil => 0
  | _, padding _ rest => rest.depth
  | _, leaf _ rest => rest.depth
  | _, text _ _ rest => rest.depth
  | _, route _ _ rest => rest.depth
  | _, scope _ body arms _ rest => max (max body.depth arms.depth + 1) rest.depth
  | _, arm _ body rest => max body.depth rest.depth

/-- The ids of the outermost nodes when the nodes are numbered from `next` on. -/
def roots : {layer : Layer} → Nat → Forest layer → List Nat
  | _, _, nil => []
  | _, next, padding _ rest => rest.roots next
  | _, next, leaf _ rest => next :: rest.roots (next + 1)
  | _, next, text _ _ rest => next :: rest.roots (next + 1)
  | _, next, route _ _ rest => next :: rest.roots (next + 1)
  | _, next, scope _ body arms _ rest =>
    next :: rest.roots (next + 1 + body.count + arms.count)
  | _, next, arm _ body rest => next :: rest.roots (next + 1 + body.count)

/-- The nodes under `parent`, numbered from `next` on in the order of the page. -/
def nodes : {layer : Layer} → (parent next : Nat) → Forest layer → List Node
  | _, _, _, nil => []
  | _, parent, next, padding _ rest => rest.nodes parent next
  | _, parent, next, leaf c rest =>
    ⟨next, c, some parent, #[], #[]⟩ :: rest.nodes parent (next + 1)
  | _, parent, next, text c lines rest =>
    ⟨next, c.joined lines, some parent, #[], #[]⟩ :: rest.nodes parent (next + 1)
  | _, parent, next, route c entries rest =>
    ⟨next, c, some parent, #[], entries.toArray⟩ :: rest.nodes parent (next + 1)
  | _, parent, next, scope c body arms _ rest =>
    let children := body.roots (next + 1) ++ arms.roots (next + 1 + body.count)
    ⟨next, c, some parent, children.toArray, #[]⟩ ::
      (body.nodes next (next + 1) ++ (arms.nodes next (next + 1 + body.count) ++
        rest.nodes parent (next + 1 + body.count + arms.count)))
  | _, parent, next, arm delimiter body rest =>
    ⟨next, delimiter, some parent, (body.roots (next + 1)).toArray, #[]⟩ ::
      (body.nodes next (next + 1) ++ rest.nodes parent (next + 1 + body.count))

/-- The issues of a page, the first command of which has the given index: unknown codes and the
lines that cannot be joined. -/
def issues (db : Database) : {layer : Layer} → Int → Forest layer → List Diagnostic
  | _, _, nil => []
  | _, position, padding _ rest => rest.issues db (position + 1)
  | _, position, leaf c rest =>
    let others := rest.issues db (position + 1)
    if (db.get? c.code).isNone then
      ⟨.unknownCode, c.code, position, "no descriptor, kept as a leaf"⟩ :: others
    else others
  | _, position, text c lines rest =>
    malformedLines c (position + 1) lines ++ rest.issues db (position + 1 + lines.length)
  | _, position, route _ entries rest => rest.issues db (position + 1 + entries.length)
  | _, position, scope _ body arms _ rest =>
    body.issues db (position + 1) ++
      (arms.issues db (position + 1 + body.flatten.length) ++
        rest.issues db (position + 1 + body.flatten.length + arms.flatten.length + 1))
  | _, position, arm _ body rest =>
    body.issues db (position + 1) ++ rest.issues db (position + 1 + body.flatten.length)

/-- The first command of a forest, or the one after it in the page. -/
def first {layer : Layer} (f : Forest layer) (after : Option Command) : Option Command :=
  f.flatten.head?.or after

end Forest

/-- The kind of the commands with a code. -/
def Database.kind? (db : Database) (code : Code) : Option CommandKind :=
  (db.get? code).map (·.kind)

/-- Whether commands of a kind own nothing of what follows them. -/
def CommandKind.StandsAlone : CommandKind → Prop
  | .plain _ => True
  | .mark => True
  | _ => False

/-- Whether a command in a body is neither the terminator nor a delimiter of the scope around it. -/
def ScopeKind.Passes (matching : Matching) (kind : ScopeKind) (c : Command) : Prop :=
  ¬kind.terminator.code.holds c.code = true ∧ ¬(kind.findBranch? matching c).isSome = true

instance (matching : Matching) (kind : ScopeKind) (c : Command) :
    Decidable (kind.Passes matching c) :=
  inferInstanceAs (Decidable (_ ∧ _))

namespace Forest

/-- Whether each command of a forest is read as what it was written for. `around?` is the scope that
the forest lies in and `after` the command that follows it in the page. No command in a body may
close the scope or start an arm, and no run of lines or entries may be followed by one more. -/
def Fits (db : Database) (matching : Matching) :
    {layer : Layer} → (around? : Option ScopeKind) → (after : Option Command) → Forest layer → Prop
  | _, _, _, nil => True
  | _, around?, after, padding c rest =>
    c.isSentinel = true ∧ (∀ kind ∈ around?, kind.Passes matching c) ∧
      rest.Fits db matching around? after
  | _, around?, after, leaf c rest =>
    c.isSentinel = false ∧ (∀ kind ∈ around?, kind.Passes matching c) ∧
      (∀ kind ∈ db.kind? c.code, kind.StandsAlone) ∧ rest.Fits db matching around? after
  | _, around?, after, text c lines rest =>
    c.isSentinel = false ∧ (∀ kind ∈ around?, kind.Passes matching c) ∧
      (∃ continuation, db.kind? c.code = some (.text continuation) ∧
        (∀ line ∈ lines, continuation.holds line.code = true) ∧
        ∀ d ∈ rest.first after, continuation.holds d.code = false) ∧
      rest.Fits db matching around? after
  | _, around?, after, route c entries rest =>
    c.isSentinel = false ∧ (∀ kind ∈ around?, kind.Passes matching c) ∧
      (∃ continuation, db.kind? c.code = some (.route continuation) ∧
        (∀ entry ∈ entries, continuation.holds entry.code = true) ∧
        ∀ d ∈ rest.first after, continuation.holds d.code = false) ∧
      rest.Fits db matching around? after
  | _, around?, after, scope c body arms terminator rest =>
    c.isSentinel = false ∧ (∀ kind ∈ around?, kind.Passes matching c) ∧
      (∃ kind, db.kind? c.code = some (.scope kind) ∧
        body.Fits db matching (some kind) (arms.first (some terminator)) ∧
        arms.Fits db matching (some kind) (some terminator) ∧
        kind.terminator.code.holds terminator.code = true) ∧
      rest.Fits db matching around? after
  | _, around?, after, arm delimiter body rest =>
    (∃ kind, around? = some kind ∧ ¬kind.terminator.code.holds delimiter.code = true ∧
      (kind.findBranch? matching delimiter).isSome = true) ∧
      body.Fits db matching around? (rest.first after) ∧ rest.Fits db matching around? after

/-- The tree of a page that stands for a forest: its nodes below a root. -/
def tree (f : Forest .body) : Tree :=
  ⟨⟨(⟨0, .sentinel, none, (f.roots 1).toArray, #[]⟩ :: f.nodes 0 1).toArray⟩, 0⟩

/-- What a page with a forest in front begins with. -/
theorem head?_flatten_append {layer : Layer} (f : Forest layer) (ds : List Command) :
    (f.flatten ++ ds).head? = f.first ds.head? :=
  List.head?_append

/-- A forest has as many nodes as it counts, wherever they are numbered from. -/
@[simp] theorem length_nodes {layer : Layer} (f : Forest layer) (parent next : Nat) :
    (f.nodes parent next).length = f.count := by
  induction f generalizing parent next with
  | nil => rfl
  | padding c rest ih => simp [nodes, count, ih]
  | leaf c rest ih => simp [nodes, count, ih]
  | text c lines rest ih => simp [nodes, count, ih]
  | route c entries rest ih => simp [nodes, count, ih]
  | scope c body arms terminator rest ihBody ihArms ih =>
    simp only [nodes, count, List.length_cons, List.length_append, ihBody, ihArms, ih]
    omega
  | arm delimiter body rest ihBody ih => simp [nodes, count, ihBody, ih]

end Forest

/-- A database with one scope, one text command and one route. -/
def Database.sample : Database where
  version := .xp
  user := ⟨[
    (1, some ⟨.str "Check", .scope ⟨[], [⟨"Otherwise", .int 2, ⟨0, .isTrue⟩, none⟩],
      ⟨.int 3, "End"⟩, true⟩⟩),
    (4, some ⟨.str "Text", .text (.int 5)⟩),
    (6, some ⟨.str "Route", .route (.int 7)⟩)]⟩
  default := .empty

/-- What the codes of the sample mean. -/
theorem Database.kind?_sample (code : Code) :
    sample.kind? code =
      if code = 1 then
        some (.scope ⟨[], [⟨"Otherwise", .int 2, ⟨0, .isTrue⟩, none⟩], ⟨.int 3, "End"⟩, true⟩)
      else if code = 4 then some (.text (.int 5))
      else if code = 6 then some (.route (.int 7))
      else none := by
  by_cases h1 : code = 1
  · rw [h1]
    rfl
  · by_cases h4 : code = 4
    · rw [h4]
      rfl
    · by_cases h6 : code = 6
      · rw [h6]
        rfl
      · have h1' : (code == 1) = false := beq_false_of_ne h1
        have h4' : (code == 4) = false := beq_false_of_ne h4
        have h6' : (code == 6) = false := beq_false_of_ne h6
        rw [if_neg h1, if_neg h4, if_neg h6]
        simp only [kind?, get?, sample, Table.find?, List.lookup_cons, h1', h4', h6']
        rfl

/-- The sample has two kinds of commands that take others in. -/
theorem Database.continuation_sample {code : Code} {continuation : CodeSlot}
    (h : sample.kind? code = some (.text continuation) ∨
      sample.kind? code = some (.route continuation)) :
    continuation = .int 5 ∨ continuation = .int 7 := by
  rw [kind?_sample] at h
  grind

/-- The sample has one kind of scope. -/
theorem Database.terminator_sample {code : Code} {kind : ScopeKind}
    (h : sample.kind? code = some (.scope kind)) : kind.terminator.code = .int 3 := by
  rw [kind?_sample] at h
  grind

/-- A scope with a text in its first body and a route in its arm, and an unknown command after
it. -/
def Forest.sample : Forest .body :=
  let command (code : Code) (h : code.InRange) : Command := ⟨code, [.str "text"], .int 0, h⟩
  .scope (command 1 (by decide))
    (.text (command 4 (by decide)) [command 5 (by decide)] .nil)
    (.arm (command 2 (by decide))
      (.route (command 6 (by decide)) [command 7 (by decide)] (.padding .sentinel .nil)) .nil)
    (command 3 (by decide)) (.leaf (command 9 (by decide)) .nil)

/-- A page that ends within its scope, with a line that is no text and an unknown command. -/
def unclosedSample : List Command :=
  let command (code : Code) (parameter : Value) (h : code.InRange) : Command :=
    ⟨code, [parameter], .int 0, h⟩
  [command 1 .null (by decide), command 4 (.str "text") (by decide), command 5 .null (by decide),
    command 9 .null (by decide)]

end PageOutline
