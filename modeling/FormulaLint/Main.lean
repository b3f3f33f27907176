import FormulaLint.Lint.Command

/-!
# The program

The program takes a picture of the files that a command line speaks of, runs the command on it,
prints what the command prints and ends as it ends.  It does not tell what is wrong with a text that
is not YAML.
-/

namespace FormulaLint

/-- The name of a place in the file system. -/
def placeName (place : List String) : String :=
  (PathName.mk .root place).text

/-- Add what stands at a place of the file system, without what is below it.  What cannot be read
counts as missing. -/
def addPlace (tree : FileTree) (place : List String) : IO FileTree := do
  let path := (← IO.currentDir) / placeName place
  if ← path.isDir then return tree.insert place .directory
  try
    let bytes ← IO.FS.readBinFile path
    return tree.insert place (.file bytes.toList)
  catch _ => return tree

/-- Add a place of the file system and everything below it, as far as the fuel goes. -/
def addBelow (tree : FileTree) (place : List String) : Nat → IO FileTree
  | 0 => return tree
  | fuel + 1 => do
      let path := (← IO.currentDir) / placeName place
      let mut tree ← addPlace tree place
      if ← path.isDir then
        for entry in ← path.readDir do
          tree ← addBelow tree (place ++ [entry.fileName]) fuel
      return tree

/-- The greatest depth of directories that is looked at. -/
def depthLimit : Nat := 64

/-- Add everything on the way of a path name, and everything below its end. -/
def addPath (tree : FileTree) (path : PathName) : IO FileTree := do
  let mut tree := tree
  let mut place := if path.start = .current then tree.current else []
  for name in path.parts do
    place := if name = ".." then place.dropLast else place ++ [name]
    tree ← addPlace tree place
  addBelow tree place depthLimit

/-- A picture of the files that a command line speaks of. -/
def pictureFor (arguments : List String) : IO FileTree := do
  let tree := FileTree.empty (PathName.names (← IO.currentDir).toString.toList)
  match CommandLine.parse arguments with
  | .ok (.run line) =>
      let tree ← addPath tree (line.lintedDirectory tree)
      match line.config with
      | some path => addPath tree path
      | none => return tree
  | _ => return tree

end FormulaLint

open FormulaLint in
/-- Run the command with the arguments of the program.  A run that breaks off fails. -/
def main (arguments : List String) : IO UInt32 := do
  let outcome := runCommand .plain (← pictureFor arguments) arguments
  IO.print outcome.outputText
  IO.eprint outcome.errorText
  match outcome.stop with
  | .exit code => return code.toUInt32
  | .fault _ =>
      IO.eprintln "fxlint: a document or the configuration cannot be processed"
      return 1
