import FormulaLint.Files.Tree
import FormulaLint.Text.Lines

/-!
# Patterns of path names

A pattern selects files and directories below a directory.  In a name a star stands for any
characters, a question mark for one, and brackets for one of a set.  Two stars as a name stand for
any number of directories.  A name without such marks is taken as it is.
-/

namespace FormulaLint

/-- A part of a name pattern. -/
inductive GlobPiece where
  | star
  | one (member : Char → Bool)

namespace GlobPiece

/-- Cut the inside of brackets at the hyphens that make ranges: a range takes the character in front
of its hyphen and the one behind it, and the next hyphen that counts comes after at least one more
character. -/
def rangeChunks : Nat → Nat → List Char → List (List Char)
  | 0, _, cs => [cs]
  | fuel + 1, least, cs =>
      match (cs.drop least).findIdx? (· == '-') with
      | none => [cs]
      | some i => cs.take (least + i) :: rangeChunks fuel 2 (cs.drop (least + i + 1))

/-- A hyphen at the end makes no range. -/
def closeChunks (chunks : List (List Char)) : List (List Char) :=
  match chunks.reverse with
  | [] :: before :: rest => ((before ++ ['-']) :: rest).reverse
  | _ => chunks

/-- Take out the ranges that are empty, together with their ends, from the last one on. -/
def dropEmptyRanges : List (List Char) → List (List Char)
  | [] => []
  | chunk :: rest =>
      match dropEmptyRanges rest with
      | [] => [chunk]
      | next :: more =>
          match chunk.getLast?, next.head? with
          | some low, some high =>
              if low > high then (chunk.dropLast ++ next.drop 1) :: more else chunk :: next :: more
          | _, _ => chunk :: next :: more

/-- Whether a character is in a range between two neighbouring chunks. -/
def inRanges (c : Char) : List (List Char) → Bool
  | chunk :: next :: rest =>
      (match chunk.getLast?, next.head? with
        | some low, some high => low ≤ c && c ≤ high
        | _, _ => false) || inRanges c (next :: rest)
  | _ => false

/-- The set of characters that brackets stand for, given what is inside them. -/
def ofBrackets (inside : List Char) : GlobPiece :=
  let least := if inside.head? = some '!' then 2 else 1
  let chunks := dropEmptyRanges (closeChunks (rangeChunks inside.length least inside))
  match chunks with
  | ('!' :: first) :: rest =>
      let chunks := first :: rest
      one fun c => !(chunks.flatten.contains c || inRanges c chunks)
  | _ => one fun c => chunks.flatten.contains c || inRanges c chunks

/-- The inside of brackets and what follows them; a closing bracket right behind the opening one, or
behind its exclamation mark, belongs to the inside. -/
def brackets? (cs : List Char) : Option (List Char × List Char) :=
  let skipped := match cs with
    | '!' :: ']' :: _ => 2
    | '!' :: _ => 1
    | ']' :: _ => 1
    | _ => 0
  match (cs.drop skipped).findIdx? (· == ']') with
  | some i => some (cs.take (skipped + i), cs.drop (skipped + i + 1))
  | none => none

/-- The pieces of a name pattern. -/
def ofName : Nat → List Char → List GlobPiece
  | 0, _ => []
  | _, [] => []
  | fuel + 1, c :: rest =>
      if c = '*' then star :: ofName fuel rest
      else if c = '?' then one (fun _ => true) :: ofName fuel rest
      else if c = '[' then
        match brackets? rest with
        | some (inside, rest) => ofBrackets inside :: ofName fuel rest
        | none => one (· == '[') :: ofName fuel rest
      else one (· == c) :: ofName fuel rest

end GlobPiece

/-- Whether a name has the form of a pattern. -/
def matchesName : List GlobPiece → List Char → Bool
  | [], cs => cs.isEmpty
  | .star :: pieces, [] => matchesName pieces []
  | .star :: pieces, c :: cs => matchesName pieces (c :: cs) || matchesName (.star :: pieces) cs
  | .one _ :: _, [] => false
  | .one member :: pieces, c :: cs => member c && matchesName pieces cs
termination_by pieces cs => pieces.length + cs.length

/-- One step of a path pattern. -/
inductive GlobStep where
  | name (name : String)
  | pattern (pieces : List GlobPiece)
  | anyDepth
  | directoryItself

/-- Why a pattern cannot be used. -/
inductive GlobError where
  | absolute
  | starsInName
  | noName
  | onlySlash
deriving DecidableEq, Repr

namespace GlobError

/-- The wording of a pattern error; some have none of their own. -/
def message? : GlobError → Option String
  | absolute => some "Non-relative patterns are unsupported"
  | starsInName => some "Invalid pattern: '**' can only be an entire path component"
  | noName | onlySlash => none

end GlobError

/-- The step for one name of a pattern. -/
def GlobStep.ofName (name : String) : Except GlobError GlobStep :=
  let cs := name.toList
  if name = "**" then .ok .anyDepth
  else if Text.hasPart ['*', '*'] cs then .error .starsInName
  else if cs.any (fun c => c == '*' || c == '?' || c == '[') then
    .ok (.pattern (GlobPiece.ofName cs.length cs))
  else .ok (.name name)

/-- The steps of a path pattern.  A slash at the end asks for directories. -/
def globSteps (pattern : String) : Except GlobError (List GlobStep) := do
  let path := PathName.ofText pattern
  let slash := pattern.toList.getLast? = some '/'
  if path.start ≠ .current then .error .absolute
  else if path.parts = [] then .error (if slash then .onlySlash else .noName)
  else
    let steps ← path.parts.mapM GlobStep.ofName
    return if slash then steps ++ [.directoryItself] else steps

namespace FileTree

/-- A directory and all directories below it, as far as the fuel goes. -/
def directoriesFrom (tree : FileTree) : Nat → PathName → List PathName
  | 0, path => [path]
  | fuel + 1, path =>
      let below := (tree.children path).map path.child |>.filter tree.isDirectory
      path :: below.flatMap (tree.directoriesFrom fuel)

/-- What a path pattern selects in a directory. -/
def selectFrom (tree : FileTree) : List GlobStep → PathName → List PathName
  | [], path => [path]
  | .directoryItself :: _, path => [path]
  | .name name :: rest, path =>
      let next := path.child name
      if (if rest.isEmpty then tree.pathExists next else tree.isDirectory next) then
        tree.selectFrom rest next
      else []
  | .pattern pieces :: rest, path =>
      let found := (tree.children path).filter fun name =>
        matchesName pieces name.toList && (rest.isEmpty || tree.isDirectory (path.child name))
      found.flatMap fun name => tree.selectFrom rest (path.child name)
  | .anyDepth :: rest, path =>
      ((tree.directoriesFrom tree.entries.size path).flatMap (tree.selectFrom rest)).eraseDups

/-- The files and directories below a directory that have the form of a pattern. -/
def glob (tree : FileTree) (directory : PathName) (pattern : String) :
    Except GlobError (List PathName) := do
  let steps ← globSteps pattern
  return if tree.isDirectory directory then tree.selectFrom steps directory else []

end FileTree

end FormulaLint
