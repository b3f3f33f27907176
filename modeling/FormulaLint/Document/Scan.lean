import FormulaLint.Analysis.Formula
import FormulaLint.Document.Control
import FormulaLint.Document.Locate
import FormulaLint.Yaml.Compose

/-!
# Scanning documents

A document is searched for controls and formulas.  A formula is a scalar that starts with an equals
sign and is the value of an entry whose key is a scalar.  Formulas of the children of a gallery see
the current item.  Every node counts once, at its first visit.
-/

namespace FormulaLint

/-- The controls and formulas of a document, in document order. -/
structure ScannedDocument where
  name : String
  controls : List String
  formulas : List FormulaRequest
deriving DecidableEq, Repr

namespace ScannedDocument

/-- The declared names of a document: its controls. -/
def symbols (d : ScannedDocument) : SymbolTable :=
  .build (.ofList (d.controls.map fun control => (control, ReferenceKind.control))) .empty

end ScannedDocument

namespace Document

/-- Where in the tree of controls a node stands. -/
structure Surroundings where
  control : Option String := none
  parent : Option String := none
  frames : List Frame := []
deriving DecidableEq, Repr

/-- What a search has found so far, and the nodes it has visited. -/
structure Search where
  seen : List Nat := []
  controls : List String := []
  formulas : List FormulaRequest := []
deriving DecidableEq, Repr

namespace Search

/-- Note a visit; without an answer the node was visited before. -/
def visit? (s : Search) (id : Nat) : Option Search :=
  if s.seen.contains id then none else some { s with seen := id :: s.seen }

end Search

/-- A document under search: its nodes, its lines and its name. -/
structure Source where
  graph : Yaml.Graph
  lines : List (List Char)
  name : String

namespace Source

/-- The formula that the value of an entry holds. -/
def formula (source : Source) (surroundings : Surroundings) (key text : String) (mark : Yaml.Mark)
    (style : Yaml.ScalarStyle) : FormulaRequest :=
  let placement := placeOf source.lines mark style
  let body :=
    if style = .folded ∧ placement.indent ≠ 0 then
      blockText source.lines (placement.line - 1).toNat placement.indent.toNat
    else text.toList
  { key := ⟨source.name, surroundings.control.getD "", key⟩
    text := String.ofList (body.drop 1)
    placement
    scope := ⟨surroundings.frames, surroundings.control, surroundings.parent⟩ }

/-- Take up a scalar value of an entry if it is a formula. -/
def scalarEntry (source : Source) (surroundings : Surroundings) (s : Search) (key text : String)
    (value : Nat) (mark : Yaml.Mark) (style : Yaml.ScalarStyle) : Search :=
  if text.toList.head? = some '=' then
    match s.visit? value with
    | some s => { s with formulas := s.formulas ++ [source.formula surroundings key text mark style] }
    | none => s
  else s

mutual

/-- Search a node. -/
def visit (source : Source) (fuel : Nat) (surroundings : Surroundings) (s : Search) (id : Nat) :
    Search :=
  match fuel with
  | 0 => s
  | fuel + 1 =>
      match s.visit? id with
      | none => s
      | some s =>
          match source.graph.content? id with
          | some (.sequence items) => items.foldl (source.visit fuel surroundings) s
          | some (.mapping entries) =>
              entries.foldl (fun s entry => source.visitEntry fuel surroundings s entry.1 entry.2) s
          | _ => s

/-- Search an entry of a mapping. -/
def visitEntry (source : Source) (fuel : Nat) (surroundings : Surroundings) (s : Search)
    (keyNode value : Nat) : Search :=
  match fuel with
  | 0 => s
  | fuel + 1 =>
      match source.graph.text? keyNode with
      | none => s
      | some key =>
          match ControlDeclaration.ofEntry? source.graph key value with
          | some declaration =>
              let inside : Surroundings :=
                { surroundings with control := some declaration.name, parent := surroundings.control }
              source.visitControl fuel inside declaration.isGallery
                { s with controls := s.controls ++ [declaration.name] } value
          | none =>
              match source.graph.node? value with
              | some ⟨_, mark, .scalar text style⟩ =>
                  source.scalarEntry surroundings s key text value mark style
              | _ => source.visit fuel surroundings s value

/-- Search the body of a control.  The children of a gallery see the current item; its own properties
do not. -/
def visitControl (source : Source) (fuel : Nat) (surroundings : Surroundings) (gallery : Bool)
    (s : Search) (id : Nat) : Search :=
  match fuel with
  | 0 => s
  | fuel + 1 =>
      match gallery, source.graph.entries? id with
      | true, some entries =>
          match s.visit? id with
          | none => s
          | some s =>
              let children :=
                { surroundings with frames := surroundings.frames ++ [⟨.item, none, none⟩] }
              entries.foldl (fun s entry =>
                let own := (source.graph.text? entry.2).isSome ||
                  source.graph.text? entry.1 == some "Properties"
                source.visitEntry fuel (if own then surroundings else children) s entry.1 entry.2) s
      | _, _ => source.visit fuel surroundings s id

end

/-- Search a whole document.  Every third step of the search visits a new node, which bounds the
depth of the search. -/
def search (source : Source) : Search :=
  source.visit (3 * source.graph.nodes.size + 6) {} {} source.graph.root

end Source

end Document

/-- Find every formula and control in the text of a document. -/
def scanDocument (text : String) (name : String) : Except Yaml.ReadError ScannedDocument := do
  match ← Yaml.compose text.toList with
  | none => return ⟨name, [], []⟩
  | some graph =>
      let found := (Document.Source.mk graph (Text.lines text.toList) name).search
      return ⟨name, found.controls, found.formulas⟩

end FormulaLint
