import PageOutline.Tree
import PageOutline.Database
import PageOutline.Value.Literal

/-!
# Rendering trees

The outline of a tree as text: one line for each node of the walk, indented by two blanks for each
level, with the code, the name that a database gives it and the parameters as literals.
-/

namespace PageOutline.Tree

/-- The name of a code, or a question mark. -/
def nameOf (db? : Option Database) (code : Code) : String :=
  match db?.bind (·.get? code) with
  | some d => d.name.display
  | none => "?"

/-- The line of a node at a depth. It is made for any parameters: that an integer with too many
digits has no literal (`Value.hasLiteral`) is left aside here. -/
def line (db? : Option Database) (depth : Nat) (c : Command) : String :=
  "".pushn ' ' (2 * depth) ++ toString c.code ++ " " ++ nameOf db? c.code ++ ": " ++
    ", ".intercalate (Value.literals c.parameters)

/-- The lines of all nodes below the root. -/
def lines (t : Tree) (db? : Option Database) : List String :=
  t.walk.filterMap fun (id, depth) => t.arena.nodes[id]?.map fun n => line db? depth n.command

/-- The outline of the page as text. As in `line`, the number of digits that a literal may have is
left aside. -/
def render (t : Tree) (db? : Option Database) : String := "\n".intercalate (t.lines db?)

end PageOutline.Tree
