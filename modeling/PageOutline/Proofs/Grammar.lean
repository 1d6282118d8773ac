import PageOutline.Proofs.Lockstep

/-!
# What a parse asks of its database

Of all that a database says about a command, a parse reads what tells the nesting: the terminator
and the delimiters of a scope and the code that continues a text or a route. Names, conditions,
parameter layouts and the use of the first arm are for editors, and it makes no difference which of
the two sets a descriptor comes from.
-/

namespace PageOutline

/-- What the kind of a command says about the commands after it. -/
inductive Grammar where
  | alone
  /-- The terminator, and the code of each delimiter with the parameter that it must have. -/
  | scope (terminator : CodeSlot) (delimiters : List (CodeSlot × Option Nat))
  | text (continuation : CodeSlot)
  | route (continuation : CodeSlot)

/-- The code of an arm's delimiter with the parameter that it must have. -/
def Branch.delimiter (b : Branch) : CodeSlot × Option Nat := (b.code, b.duplicateParameter?)

/-- What a kind of command says about the commands after it. -/
def CommandKind.grammar : CommandKind → Grammar
  | .scope k => .scope k.terminator.code (k.branches.map Branch.delimiter)
  | .text continuation => .text continuation
  | .plain _ => .alone
  | .route continuation => .route continuation
  | .mark => .alone

/-- The grammar of the commands with a code; nothing if the code is unknown. -/
def Database.grammar? (db : Database) (code : Code) : Option Grammar :=
  (db.get? code).map (·.kind.grammar)

/-! ## The same grammar, the same parse -/

/-- Whether a command is the delimiter that is described. -/
def isDelimiter (matching : Matching) (c : Command) (delimiter : CodeSlot × Option Nat) : Bool :=
  delimiter.1.holds c.code &&
    (matching == .code || delimiter.2.all (· < c.parameters.length))

/-- A scope starts an arm at a command exactly if that is one of its delimiters. -/
theorem ScopeKind.isSome_findBranch? (k : ScopeKind) (matching : Matching) (c : Command) :
    (k.findBranch? matching c).isSome =
      (k.branches.map Branch.delimiter).any (isDelimiter matching c) := by
  rw [List.any_map, findBranch?, List.isSome_find?]
  rfl

/-- Scopes with the same terminator and the same delimiters agree on every page. -/
theorem ScopeKind.agrees_of_delimiters {k k' : ScopeKind} (matching : Matching)
    (page : List Command) (hterminator : k.terminator.code = k'.terminator.code)
    (hdelimiters : k.branches.map Branch.delimiter = k'.branches.map Branch.delimiter) :
    k.Agrees matching matching page k' := by
  refine ⟨hterminator, ?_⟩
  intro c _
  rw [isSome_findBranch?, isSome_findBranch?, hdelimiters]

/-- Kinds with one grammar are not told apart by any page. -/
theorem KindsAgree.of_grammar {k k' : CommandKind} (matching : Matching) (page : List Command)
    (h : k.grammar = k'.grammar) : KindsAgree matching matching page (some k) (some k') := by
  cases k with
  | scope k =>
    cases k' with
    | scope k' =>
      obtain ⟨hterminator, hdelimiters⟩ := Grammar.scope.inj h
      exact .scope (ScopeKind.agrees_of_delimiters matching page hterminator hdelimiters)
    | _ => cases h
  | text continuation =>
    cases k' with
    | text continuation' =>
      rw [Grammar.text.inj h]
      exact .text continuation'
    | _ => cases h
  | route continuation =>
    cases k' with
    | route continuation' =>
      rw [Grammar.route.inj h]
      exact .route continuation'
    | _ => cases h
  | plain parameters =>
    cases k' with
    | plain parameters' => exact .alone trivial trivial
    | mark => exact .alone trivial trivial
    | _ => cases h
  | mark =>
    cases k' with
    | plain parameters' => exact .alone trivial trivial
    | mark => exact .alone trivial trivial
    | _ => cases h

/-- Databases of the same grammar for the codes of a page agree on the page. -/
theorem Database.agrees_of_grammar {db db' : Database} (matching : Matching) {page : List Command}
    (h : ∀ c ∈ page, db.grammar? c.code = db'.grammar? c.code) :
    Database.Agrees matching matching page db db' := by
  intro c hc
  have hgrammar := h c hc
  simp only [grammar?] at hgrammar
  unfold kind?
  cases hd : db.get? c.code with
  | none =>
    cases hd' : db'.get? c.code with
    | none => exact .unknown
    | some d' => simp [hd, hd'] at hgrammar
  | some d =>
    cases hd' : db'.get? c.code with
    | none => simp [hd, hd'] at hgrammar
    | some d' =>
      rw [hd, hd'] at hgrammar
      exact .of_grammar matching page (Option.some.inj hgrammar)

/-! ## Descriptors without what editors need -/

/-- An arm without its name and with the least condition. -/
def Branch.bare (b : Branch) : Branch := ⟨"", b.code, ⟨0, .isTrue⟩, b.duplicateParameter?⟩

/-- A kind of command without names, conditions and parameter layouts. -/
def CommandKind.bare : CommandKind → CommandKind
  | .scope k => .scope ⟨[], k.branches.map Branch.bare, ⟨k.terminator.code, ""⟩, false⟩
  | .plain _ => .plain []
  | k => k

/-- A descriptor without names, conditions and parameter layouts, and whose first arm is said to
hold no commands. -/
def Descriptor.bare (d : Descriptor) : Descriptor := ⟨.str "", d.kind.bare⟩

/-- A database whose descriptors are all bare. -/
def Database.bare (db : Database) : Database :=
  { db with user := db.user.map (Option.map Descriptor.bare), default := db.default.map .bare }

/-- A kind has the same grammar without its names, conditions and layouts. -/
theorem CommandKind.grammar_bare (k : CommandKind) : k.bare.grammar = k.grammar := by
  cases k with
  | scope k =>
    have hdelimiters : (k.branches.map Branch.bare).map Branch.delimiter =
        k.branches.map Branch.delimiter := by
      rw [List.map_map]
      rfl
    simp only [bare, grammar, hdelimiters]
  | _ => rfl

/-- The database of bare descriptors has a bare descriptor for each that there was. -/
theorem Database.get?_bare (db : Database) (code : Code) :
    db.bare.get? code = (db.get? code).map .bare := by
  simp only [get?, bare, Table.find?_map]
  cases db.user.find? code with
  | none => rfl
  | some entry => cases entry <;> rfl

/-- The database of bare descriptors has the same grammar for every code. -/
theorem Database.grammar?_bare (db : Database) (code : Code) :
    db.bare.grammar? code = db.grammar? code := by
  rw [grammar?, grammar?, get?_bare]
  cases db.get? code with
  | none => rfl
  | some d => exact congrArg some d.kind.grammar_bare

/-! ## One set in the place of two -/

/-- A project's commands are found as if they had been set in the engine's table. -/
theorem Database.get?_merge (version version' : EngineVersion) {user : CommandSet}
    (default : CommandSet) (hkeys : user.keys.Nodup) (code : Code) :
    get? ⟨version, user.map some, default⟩ code =
      get? ⟨version', .empty, default.merge user⟩ code := by
  have hempty : (Table.empty : Table (Option Descriptor)).find? code = none := rfl
  simp only [get?, Table.find?_map, hempty, Table.find?_merge default hkeys]
  cases user.find? code <;> rfl

/-- A descriptor of the engine's is not found where the project has one. -/
theorem Database.get?_of_shadowed {db : Database} {default : CommandSet}
    (h : ∀ code, (∀ d, db.user.find? code ≠ some (some d)) →
      default.find? code = db.default.find? code) (code : Code) :
    get? { db with default } code = db.get? code := by
  simp only [get?]
  cases huser : db.user.find? code with
  | none => exact h code (by simp [huser])
  | some entry =>
    cases entry with
    | none => exact h code (by simp [huser])
    | some d => rfl

/-- A parse depends on its database through the grammar of the commands of the page and through
nothing else: databases that give them the same grammar give the same tree or error, issues and log.
So a project's commands may as well replace the engine's in one table, and nothing follows from the
version, from what editors need of a descriptor or from a descriptor of the engine's that is
hidden. -/
theorem parsePageWithin_eq_of_grammar (room : Nat) (matching : Matching) (diagnostics : Diagnostics)
    (log : Array LogRecord) (page : List Command) :
    let parse (db : Database) := parsePageWithin room db matching diagnostics log page
    (∀ db db' : Database, (∀ c ∈ page, db.grammar? c.code = db'.grammar? c.code) →
        parse db = parse db') ∧
      (∀ (version version' : EngineVersion) (user default : CommandSet), user.keys.Nodup →
        parse ⟨version, user.map some, default⟩ =
          parse ⟨version', .empty, default.merge user⟩) ∧
      (∀ db : Database, parse db.bare = parse db) ∧
      ∀ (db : Database) (default : CommandSet),
        (∀ code, (∀ d, db.user.find? code ≠ some (some d)) →
          default.find? code = db.default.find? code) →
        parse { db with default } = parse db := by
  intro parse
  have hparse : ∀ db db' : Database, (∀ c ∈ page, db.grammar? c.code = db'.grammar? c.code) →
      parse db = parse db' := fun db db' h =>
    parsePageWithin_eq_of_agrees (Database.agrees_of_grammar matching h) room diagnostics log
  refine ⟨hparse, ?_, ?_, ?_⟩
  · intro version version' user default hkeys
    apply hparse
    intro c _
    simp only [Database.grammar?, Database.get?_merge version version' default hkeys]
  · intro db
    apply hparse
    intro c _
    exact db.grammar?_bare c.code
  · intro db default h
    apply hparse
    intro c _
    simp only [Database.grammar?, Database.get?_of_shadowed h]

/-- The scope and the route of the sample taken from the engine's commands, and its text from the
project's, which hides a mark. -/
theorem grammar_sample :
    let user : CommandSet := ⟨[(4, ⟨.str "Say", .text (.int 5)⟩)]⟩
    let default : CommandSet := ⟨[
      (1, ⟨.str "If", .scope ⟨[], [⟨"Else", .int 2, ⟨1, .isTrue⟩, none⟩], ⟨.int 3, "Fi"⟩, false⟩⟩),
      (4, ⟨.str "Mark", .mark⟩), (6, ⟨.str "Move", .route (.int 7)⟩)]⟩
    let db : Database := ⟨.xp, user.map some, default⟩
    let parse (db : Database) :=
      parsePageWithin 1 db .code (.empty true) #[] Forest.sample.flatten
    ((∀ c ∈ Forest.sample.flatten, db.grammar? c.code = Database.sample.grammar? c.code) ∧
        user.keys.Nodup ∧
        ∀ code, (∀ d, db.user.find? code ≠ some (some d)) →
          (default.erase 4).find? code = db.default.find? code) ∧
      parse db = parse .sample ∧ parse db = parse ⟨.ace, .empty, default.merge user⟩ ∧
      parse db.bare = parse db ∧ parse { db with default := default.erase 4 } = parse db := by
  intro user default db parse
  have hgrammar : ∀ c ∈ Forest.sample.flatten,
      db.grammar? c.code = Database.sample.grammar? c.code := by
    intro c hc
    have hcode : c.code ∈ ([1, 4, 5, 2, 6, 7, 0, 3, 9] : List Code) :=
      List.mem_map_of_mem hc
    simp only [List.mem_cons, List.not_mem_nil, or_false] at hcode
    rcases hcode with h | h | h | h | h | h | h | h | h <;> rw [h] <;> rfl
  have hkeys : user.keys.Nodup := by decide
  have hshadowed : ∀ code, (∀ d, db.user.find? code ≠ some (some d)) →
      (default.erase 4).find? code = db.default.find? code := by
    intro code h
    have hcode : (code == 4) = false := by
      apply beq_false_of_ne
      rintro rfl
      exact h _ rfl
    have herase : (default.erase 4).entries = [default.entries[0], default.entries[2]] := rfl
    simp only [Table.find?, herase, default, db, List.lookup_cons, hcode]
    rfl
  obtain ⟨hparse, hmerge, hbare, hhidden⟩ :=
    parsePageWithin_eq_of_grammar 1 .code (.empty true) #[] Forest.sample.flatten
  exact ⟨⟨hgrammar, hkeys, hshadowed⟩, hparse db .sample hgrammar,
    hmerge .xp .ace user default hkeys, hbare db, hhidden db _ hshadowed⟩

end PageOutline
