import FormulaLint.Text.Blank
import FormulaLint.Text.LetterCase

/-!
# Kinds of references

What a name in a formula can stand for.  A configuration writes the kind of a symbol as a word;
case, blanks at the ends, and the choice between hyphen, blank and underscore do not matter.
-/

namespace FormulaLint

/-- What a name stands for. -/
inductive ReferenceKind where
  | control
  | controlProperty
  | globalVariable
  | contextVariable
  | dataSource
  | dataSourceField
  | enumeration
  | enumerationMember
  | contextKeyword
  | unresolved
deriving DecidableEq, Repr

/-- A value that names no kind, as a message shows it. -/
structure UnknownKind where
  shown : String
deriving DecidableEq, Repr

namespace UnknownKind

/-- The wording for an unknown kind. -/
def message (e : UnknownKind) : String :=
  "Unknown reference kind: " ++ e.shown

end UnknownKind

namespace ReferenceKind

/-- The word for a kind. -/
def label : ReferenceKind → String
  | control => "control"
  | controlProperty => "control_property"
  | globalVariable => "global_variable"
  | contextVariable => "context_variable"
  | dataSource => "data_source"
  | dataSourceField => "data_source_field"
  | enumeration => "enum"
  | enumerationMember => "enum_member"
  | contextKeyword => "context_keyword"
  | unresolved => "unresolved"

/-- Every kind. -/
def all : List ReferenceKind :=
  [control, controlProperty, globalVariable, contextVariable, dataSource, dataSourceField,
   enumeration, enumerationMember, contextKeyword, unresolved]

/-- The kind with exactly the given word. -/
def ofLabel? (word : String) : Option ReferenceKind :=
  all.find? (·.label = word)

/-- A text as it is compared with the words for kinds. -/
def normalize (text : String) : String :=
  let trimmed := String.ofList (Text.trim text.toList)
  String.ofList ((Text.lower trimmed).toList.map fun c => if c = '-' ∨ c = ' ' then '_' else c)

/-- The kind that a text names. -/
def ofWord? (text : String) : Option ReferenceKind :=
  ofLabel? (normalize text)

/-- The kind that a value names, given its text and its shown form. -/
def parse (text shown : String) : Except UnknownKind ReferenceKind :=
  match ofWord? text with
  | some kind => .ok kind
  | none => .error ⟨shown⟩

/-- The kind of a symbol whose member is accessed. -/
def withMember : ReferenceKind → ReferenceKind
  | control => controlProperty
  | enumeration => enumerationMember
  | kind => kind

end ReferenceKind

end FormulaLint
