/-!
# Paths and folders

Paths in the notation with slashes, cleaned of empty and `.` steps but not of `..`. A folder holds
files by their path from it; opening a path follows its steps as a file system does.
-/

namespace PageOutline

/-- A path: what it starts from, if it is absolute, and its steps. -/
structure Path where
  /-- One slash for an absolute path, two where exactly two are written, empty for a relative
  path. -/
  root : String
  steps : List String
deriving DecidableEq

namespace Path

/-- Reads a path. -/
def ofText (s : String) : Path :=
  let slashes := (s.toList.takeWhile (· == '/')).length
  let root := if slashes = 0 then "" else if slashes = 2 then "//" else "/"
  let steps := (s.toList.splitOn '/').map String.ofList
  ⟨root, steps.filter fun step => !step.isEmpty && step != "."⟩

/-- Whether a path starts from a root. -/
def isAbsolute (p : Path) : Bool := !p.root.isEmpty

/-- The path as text; the empty relative path is a dot. -/
def text (p : Path) : String :=
  if p.root.isEmpty && p.steps.isEmpty then "." else p.root ++ "/".intercalate p.steps

/-- The folder that the path's last step is in. -/
def parent (p : Path) : Path := { p with steps := p.steps.dropLast }

/-- Follows a second path from this one; an absolute path starts anew. -/
def join (p q : Path) : Path :=
  if q.isAbsolute then q else { p with steps := p.steps ++ q.steps }

end Path

/-- A file's bytes. -/
abbrev FileContent := List UInt8

/-- Files by their steps from the folder. -/
structure Folder where
  files : List (List String × FileContent)

/-- Why a file cannot be read. -/
inductive FileError where
  | notFound
  | isFolder
  | notFolder
  /-- A path holds a character that no file's name may hold. -/
  | badName
  /-- A path, or a step of it, has more bytes than the file system takes. -/
  | nameTooLong
deriving DecidableEq

namespace Folder

/-- Whether some file lies below the steps. The folder itself always exists. -/
def isFolder (f : Folder) (steps : List String) : Bool :=
  steps.isEmpty || f.files.any fun e => steps.length < e.1.length && steps.isPrefixOf e.1

/-- The most bytes that the name of a file or folder may have. -/
def maxNameBytes : Nat := 255

/-- The most bytes that a path may have. -/
def maxPathBytes : Nat := 4095

/-- The failure of a step into a folder that has no such file. -/
def missing (step : String) : FileError :=
  if maxNameBytes < step.utf8ByteSize then .nameTooLong else .notFound

/-- Follows steps from a place in the folder. `outside` counts the levels above the folder, where
only folders are known. -/
def walk (f : Folder) : (place : List String) → (outside : Nat) → List String →
    Except FileError (List String × Nat)
  | place, outside, [] => .ok (place, outside)
  | place, outside, step :: rest =>
    if outside ≠ 0 then
      if step = ".." then f.walk place (outside + 1) rest else .error (missing step)
    else if f.isFolder place then
      if step = ".." then
        if place.isEmpty then f.walk place 1 rest else f.walk place.dropLast 0 rest
      else if maxNameBytes < step.utf8ByteSize then .error .nameTooLong
      else f.walk (place ++ [step]) 0 rest
    else if (f.files.lookup place).isSome then .error .notFolder
    else .error .notFound

/-- The bytes of the file at a path. -/
def read (f : Folder) (p : Path) : Except FileError FileContent :=
  if p.text.contains '\x00' then .error .badName
  else if maxPathBytes < p.text.utf8ByteSize then .error .nameTooLong
  else if p.isAbsolute then
    -- the root is its own parent
    match p.steps.dropWhile (· == "..") with
    | [] => .error .isFolder
    | step :: _ => .error (missing step)
  else
    match f.walk [] 0 p.steps with
    | .error e => .error e
    | .ok (place, outside) =>
      if outside ≠ 0 ∨ f.isFolder place then .error .isFolder
      else
        match f.files.lookup place with
        | some content => .ok content
        | none => .error .notFound

end Folder

end PageOutline
