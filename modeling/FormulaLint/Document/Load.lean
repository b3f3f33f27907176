import FormulaLint.Document.Scan
import FormulaLint.Files.Tree

/-!
# Document files

A document is read from a file and searched for controls and formulas.  It is known by the last name
of its path.  A file that cannot be opened and a text that is not YAML are faults of the document,
and are reported as such, the latter in the words of the reader; other faults end the work on it.
-/

namespace FormulaLint

/-- Why a document cannot be used. -/
inductive DocumentError where
  | unreadable (path : PathName) (error : FileError)
  | malformed (name fault : String)
  | notText
  | value (error : Yaml.ReadError)
deriving DecidableEq, Repr

namespace DocumentError

/-- The wording of an error that is reported as a fault of the document. -/
def message? : DocumentError → Option String
  | unreadable path error => some (path.name ++ ": Error reading file - " ++ error.message path)
  | malformed name fault => some (name ++ ": Invalid YAML syntax - " ++ fault)
  | notText | value _ => none

/-- The error of a document whose text cannot be read; {lit}`fault` is what the reader says if the
text is malformed. -/
def ofReadError (name fault : String) : Yaml.ReadError → DocumentError
  | .malformed => malformed name fault
  | error => value error

end DocumentError

/-- Find every formula and control in the text of a document with a name. -/
def readDocument (wording : Yaml.Wording) (text name : String) :
    Except DocumentError ScannedDocument :=
  (scanDocument text name).mapError (.ofReadError name (wording.ofText text))

/-- Find every formula and control in a document file. -/
def loadDocument (wording : Yaml.Wording) (tree : FileTree) (path : PathName) :
    Except DocumentError ScannedDocument := do
  let bytes ← (tree.read path).mapError (.unreadable path)
  match fileText? bytes with
  | none => .error .notText
  | some text => readDocument wording text path.name

end FormulaLint
