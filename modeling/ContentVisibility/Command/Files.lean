import ContentVisibility.Settings.Layered

/-!
# Files

* `FileFault`: why a file cannot be read;
* `Files`: access to files in any monad;
* `FileTree`: files in memory.
-/

namespace ContentVisibility.Command

/-- Why a file cannot be read. -/
inductive FileFault where
  | missing
  | directory
  /-- The path goes on behind a file. -/
  | notDirectory
  | nameTooLong
  | other (message : String)
  deriving DecidableEq, Repr

def FileFault.message : FileFault → String
  | missing => "No such file or directory (os error 2)"
  | directory => "Is a directory (os error 21)"
  | notDirectory => "Not a directory (os error 20)"
  | nameTooLong => "File name too long (os error 36)"
  | other message => message

/-- Access to files. -/
structure Files (m : Type → Type) where
  /-- The text of the file at a path. -/
  read : String → m (Except FileFault String)

/-- The text of the file with the settings of a layer. No layer needs a file: one that cannot be read
holds no settings. In the place of a directory stands the file whose name has one more ending. -/
def Files.layer [Monad m] (files : Files m) (path : String) : m (Option String) := do
  match ← files.read path with
  | .ok text => pure (some text)
  | .error .directory =>
    match ← files.read (path ++ ".toml") with
    | .ok text => pure (some text)
    | .error _ => pure none
  | .error _ => pure none

/-! ## Files in memory -/

/-- Files in memory: the parts of each path from the root, and the text. -/
structure FileTree where
  files : List (List String × String)
  /-- The directory in which relative paths start. -/
  working : List String

namespace FileTree

/-- The parts of a path. Empty parts and single dots lead nowhere. -/
def parts (path : String) : List String :=
  (path.splitOn "/").filter fun part => part != "" && part != "."

/-- The tree with one more file; a relative path starts in the working directory. -/
def insert (tree : FileTree) (path text : String) : FileTree :=
  let start := if path.startsWith "/" then [] else tree.working
  { tree with files := (start ++ parts path, text) :: tree.files }

/-- Whether the parts lead from the root to a directory. -/
def isDirectory (tree : FileTree) (path : List String) : Bool :=
  path.isPrefixOf tree.working ||
    tree.files.any fun file => path.isPrefixOf file.1 && path.length < file.1.length

/-- The text of the file to which the parts lead from the root. -/
def text? (tree : FileTree) (path : List String) : Option String := tree.files.lookup path

/-- Follow the parts of a path from a directory. Above the root there is only the root. -/
def follow (tree : FileTree) (current : List String) : List String → Except FileFault String
  | [] => .error .directory
  | ".." :: rest => tree.follow current.dropLast rest
  | part :: rest =>
    let target := current ++ [part]
    if 255 < part.utf8ByteSize then .error .nameTooLong
    else if tree.isDirectory target then tree.follow target rest
    else
      match tree.text? target with
      | none => .error .missing
      | some text => if rest.isEmpty then .ok text else .error .notDirectory

/-- The text of the file at a path. A slash at the end of a path leads only to a directory. -/
def read (tree : FileTree) (path : String) : Except FileFault String :=
  if path.isEmpty then .error .missing
  else if 4096 ≤ path.utf8ByteSize then .error .nameTooLong
  else
    match tree.follow (if path.startsWith "/" then [] else tree.working) (parts path) with
    | .ok text =>
      if path.endsWith "/" || path.endsWith "/." then .error .notDirectory else .ok text
    | .error fault => .error fault

def access (tree : FileTree) : Files Id := ⟨tree.read⟩

end FileTree

end ContentVisibility.Command
