import FormulaLint.Binding.Kind

/-!
# Scopes and bindings

A formula is surrounded by record scopes, one frame for each, the innermost last.  A frame with
unknown fields may hold any name.  A binding says what a name was found to stand for.
-/

namespace FormulaLint

/-- The two sorts of record scopes: the row of a table function, and the item of a gallery. -/
inductive FrameKind where
  | record
  | item
deriving DecidableEq, Repr

namespace FrameKind

/-- The word for a sort of frame. -/
def label : FrameKind → String
  | record => "record"
  | item => "item"

/-- The sort of frame that a word names. -/
def ofLabel? (word : String) : Option FrameKind :=
  [record, item].find? (·.label = word)

end FrameKind

/-- One record scope: its source, if it has one, and its fields, if they are known. -/
structure Frame where
  kind : FrameKind
  source : Option String
  fields : Option (List String)
deriving DecidableEq, Repr

namespace Frame

/-- Whether a frame is known to have a field. -/
def hasField (frame : Frame) (name : String) : Bool :=
  match frame.fields with
  | some fields => fields.contains name
  | none => false

end Frame

/-- The scopes around a formula, innermost frame last, and the controls it belongs to. -/
structure Scope where
  frames : List Frame := []
  self : Option String := none
  parent : Option String := none
deriving DecidableEq, Repr

namespace Scope

/-- Enter a record scope. -/
def push (scope : Scope) (frame : Frame) : Scope :=
  { scope with frames := scope.frames ++ [frame] }

/-- The innermost frame of a sort, or of any sort. -/
def innermost (scope : Scope) (kind : Option FrameKind) : Option Frame :=
  scope.frames.reverse.find? fun frame =>
    match kind with
    | some kind => frame.kind = kind
    | none => true

/-- The innermost frame that is known to have a field. -/
def frameWith (scope : Scope) (name : String) : Option Frame :=
  scope.frames.reverse.find? (·.hasField name)

/-- The innermost frame whose fields are unknown. -/
def openFrame (scope : Scope) : Option Frame :=
  scope.frames.reverse.find? (·.fields.isNone)

/-- The outermost frame over a source. -/
def frameOver (scope : Scope) (source : String) : Option Frame :=
  scope.frames.find? (·.source = some source)

end Scope

/-- What a name was found to stand for: its kind and name, the source of a field or the control
behind a keyword, the frame it was found in, and the first member that is accessed. -/
structure Binding where
  kind : ReferenceKind
  name : String
  source : Option String := none
  frame : Option Frame := none
  member : Option String := none
deriving DecidableEq, Repr

end FormulaLint
