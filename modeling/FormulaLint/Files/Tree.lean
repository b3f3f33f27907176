import FormulaLint.Files.PathName
import FormulaLint.OrderedMap
import FormulaLint.Text.Shown

/-!
# File trees

A file tree says which files and directories there are, and what the files hold.  A path name is
followed name by name: every name on the way has to be that of a directory.  Texts are read with all
line ends turned into line feeds.
-/

namespace FormulaLint

/-- A file or a directory. -/
inductive FileEntry where
  | file (bytes : List UInt8)
  | directory
deriving DecidableEq, Repr

/-- Files and directories by their names from the root, and the current directory. -/
structure FileTree where
  current : List String
  entries : OrderedMap (List String) FileEntry
deriving DecidableEq, Repr

/-- Why a file cannot be opened. -/
inductive FileError where
  | missing
  | notDirectory
  | isDirectory
deriving DecidableEq, Repr

namespace FileError

/-- The wording of a file error for a path name. -/
def message (e : FileError) (path : PathName) : String :=
  let reason := match e with
    | missing => "[Errno 2] No such file or directory"
    | notDirectory => "[Errno 20] Not a directory"
    | isDirectory => "[Errno 21] Is a directory"
  reason ++ ": " ++ Text.shown path.text

end FileError

namespace FileTree

/-- Add a file or directory with the directories above it. -/
def insert (tree : FileTree) (path : List String) (entry : FileEntry) : FileTree :=
  let above := (List.range path.length).map fun n => path.take n
  let entries := above.foldl (fun entries p => entries.insertIfNew p .directory) tree.entries
  { tree with entries := entries.insert path entry }

/-- The tree with an empty current directory. -/
def empty (current : List String) : FileTree :=
  FileTree.insert ⟨current, .empty⟩ current .directory

/-- What stands at a place. -/
def entry? (tree : FileTree) (place : List String) : Option FileEntry :=
  if place = [] then some .directory else tree.entries.get? place

/-- Follow names from a place. -/
def follow (tree : FileTree) (place : List String) : List String → Except FileError (List String)
  | [] => if (tree.entry? place).isSome then .ok place else .error .missing
  | name :: rest =>
      match tree.entry? place with
      | none => .error .missing
      | some (.file _) => .error .notDirectory
      | some .directory =>
          if name = ".." then tree.follow place.dropLast rest
          else tree.follow (place ++ [name]) rest

/-- The place that a path name leads to. -/
def resolve (tree : FileTree) (path : PathName) : Except FileError (List String) :=
  tree.follow (if path.start = .current then tree.current else []) path.parts

/-- Whether a path name leads somewhere. -/
def pathExists (tree : FileTree) (path : PathName) : Bool :=
  match tree.resolve path with
  | .ok _ => true
  | .error _ => false

/-- Whether a path name leads to a directory. -/
def isDirectory (tree : FileTree) (path : PathName) : Bool :=
  match tree.resolve path with
  | .ok place => tree.entry? place = some .directory
  | .error _ => false

/-- The names in a directory. -/
def children (tree : FileTree) (path : PathName) : List String :=
  match tree.resolve path with
  | .ok place =>
      tree.entries.keys.filterMap fun p =>
        if p.dropLast = place then p.getLast? else none
  | .error _ => []

/-- The bytes of a file. -/
def read (tree : FileTree) (path : PathName) : Except FileError (List UInt8) := do
  let place ← tree.resolve path
  match tree.entry? place with
  | some (.file bytes) => return bytes
  | some .directory => .error .isDirectory
  | none => .error .missing

/-- The path name of the current directory from the root. -/
def currentPath (tree : FileTree) : PathName :=
  ⟨.root, tree.current⟩

end FileTree

/-- A text with every line end turned into a line feed. -/
def unifyLineEnds : List Char → List Char
  | '\r' :: '\n' :: rest => '\n' :: unifyLineEnds rest
  | '\r' :: rest => '\n' :: unifyLineEnds rest
  | c :: rest => c :: unifyLineEnds rest
  | [] => []

/-- The text of a file, if its bytes encode one. -/
def fileText? (bytes : List UInt8) : Option String :=
  (String.fromUTF8? ⟨bytes.toArray⟩).map fun text => String.ofList (unifyLineEnds text.toList)

end FormulaLint
