import FormulaLint.Text.Blank
import FormulaLint.Text.LetterCase
import FormulaLint.Text.Lines
import FormulaLint.Text.WordChar
import FormulaLint.Yaml.Node

/-!
# Controls of a document

An entry of a mapping declares a control in one of two ways: its key names the control and its type,
as in {lit}`Label1 As label`, or its value is a mapping that gives the type or the properties of the
control.
-/

namespace FormulaLint

/-- A declared control: its name and its type, which may be unknown and is then empty. -/
structure ControlDeclaration where
  name : String
  type : String
deriving DecidableEq, Repr

namespace ControlDeclaration

/-- Whether the control shows its children once for each item of a table. -/
def isGallery (d : ControlDeclaration) : Bool :=
  Text.hasPart "gallery".toList (Text.lower d.type).toList

/-- The type behind the word {lit}`As`, when a text consists of blanks, that word, blanks, and a type
with nothing but blanks behind it. -/
def typeBehind? (cs : List Char) : Option (List Char) :=
  match cs with
  | [] => none
  | c :: _ =>
      match Text.trimStart cs with
      | 'A' :: 's' :: rest =>
          let isTypeChar := fun c => Text.isWordChar c || c == '.'
          let body := Text.trimStart rest
          let type := body.takeWhile isTypeChar
          if Text.isBlank c && body.length < rest.length && !type.isEmpty &&
              Text.allBlank (body.dropWhile isTypeChar) then some type
          else none
      | _ => none

/-- The shortest name in front of a type, given the characters of the name so far, backwards.  A name
has no line feed behind its first character. -/
def splitName? (name : List Char) : List Char → Option ControlDeclaration
  | [] => none
  | c :: rest =>
      if name.isEmpty then splitName? [c] rest
      else
        match typeBehind? (c :: rest) with
        | some type => some ⟨String.ofList name.reverse, String.ofList type⟩
        | none => if c = '\n' then none else splitName? (c :: name) rest

/-- The control that a key declares by itself. -/
def ofKey? (key : String) : Option ControlDeclaration :=
  splitName? [] (Text.trimStart key.toList)

/-- The value of the last entry of a mapping under a key. -/
def lastUnder? (g : Yaml.Graph) (entries : List (Nat × Nat)) (key : String) : Option Nat :=
  (entries.reverse.find? fun entry => g.text? entry.1 = some key).map (·.2)

/-- The control that an entry with the given key and value declares. -/
def ofEntry? (g : Yaml.Graph) (key : String) (value : Nat) : Option ControlDeclaration :=
  match ofKey? key with
  | some declaration => some declaration
  | none => do
      let entries ← g.entries? value
      match lastUnder? g entries "Control", lastUnder? g entries "Properties" with
      | none, none => none
      | type, _ => some ⟨key, (type.bind g.text?).getD ""⟩

end ControlDeclaration

end FormulaLint
