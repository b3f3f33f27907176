import FormulaLint.Data.Basic
import FormulaLint.Yaml.Compose
import FormulaLint.Yaml.Literal

/-!
# From nodes to data

The graph of a document is turned into data.  Collections are first made empty and filled later, in
the order in which they were met, so that a collection can hold itself.  Before a mapping becomes a
dictionary, the entries that it merges from other mappings are put in front of its own, where own
entries win.  Keys of dictionaries have to be single values.
-/

namespace FormulaLint.Yaml

/-- The state of turning nodes into data. -/
structure Loading where
  nodes : Array Node
  cells : Array Cell := #[]
  /-- The cell of every node that has one. -/
  made : List (Nat × Nat) := []
  /-- The nodes whose collections are still empty, with their cells. -/
  waiting : List (Nat × Nat) := []

/-- A step of turning nodes into data. -/
abbrev Load := StateT Loading (Except ReadError)

namespace Load

/-- Report a fault of the text. -/
def malformed {α : Type} : Load α :=
  throw .malformed

/-- The node with a number. -/
def nodeAt (id : Nat) : Load Node := do
  match (← get).nodes[id]? with
  | some node => return node
  | none => malformed

/-- The entries of a mapping node; another node has none. -/
def entriesAt (id : Nat) : Load (Option (List (Nat × Nat))) := do
  match (← nodeAt id).content with
  | .mapping entries => return some entries
  | _ => return none

/-- Change a node. -/
def change (id : Nat) (f : Node → Node) : Load Unit :=
  modify fun s => { s with nodes := s.nodes.modify id f }

/-- The tag of the node with a number. -/
def tagAt (id : Nat) : Load Tag := do
  return (← nodeAt id).tag

/-- Add a cell and tell its number. -/
def add (cell : Cell) : Load Nat := do
  let s ← get
  set { s with cells := s.cells.push cell }
  return s.cells.size

/-- Change what a cell holds. -/
def fill (id : Nat) (cell : Cell) : Load Unit :=
  modify fun s => { s with cells := s.cells.setIfInBounds id cell }

/-! ## Scalars -/

/-- The text of a scalar.  A mapping has the text of its value under an equals sign. -/
def scalarText (fuel : Nat) (id : Nat) : Load String := do
  match fuel with
  | 0 => malformed
  | fuel + 1 =>
      match (← nodeAt id).content with
      | .scalar text _ => return text
      | .sequence _ => malformed
      | .mapping entries =>
          match ← entries.findM? (fun entry => return (← tagAt entry.1) = .value) with
          | some entry => scalarText fuel entry.2
          | none => malformed

/-- The single value that a node with the given tag stands for. -/
def atom (tag : Tag) (id : Nat) : Load Atom := do
  let text ← scalarText ((← get).nodes.size + 1) id
  match tag with
  | .null => return .null
  | .truth => return .truth (← truthOf text)
  | .whole => return .number (.whole (← wholeNumber text))
  | .fraction => return .number (.double (← fractionNumber text))
  | .binary => return .bytes (← bytesOf text)
  | .timestamp =>
      match (← nodeAt id).content with
      | .scalar text _ => timestampOf text
      | _ => throw .timestampNode
  | .text => return .text text
  | _ => malformed

/-! ## Merging -/

/-- The position of the first merge key among entries. -/
def firstMerge (entries : List (Nat × Nat)) : Load (Option Nat) := do
  let tags ← entries.mapM fun entry => tagAt entry.1
  return tags.findIdx? (· = .merge)

/-- Let an equals sign that is a key stand for itself. -/
def settleKeys (entries : List (Nat × Nat)) : Load Unit :=
  entries.forM fun entry => do
    if (← tagAt entry.1) = .value then change entry.1 fun node => { node with tag := .text }

mutual

/-- Put the merged entries of a mapping in front of its own. -/
def flatten (fuel : Nat) (id : Nat) : Load Unit := do
  match fuel with
  | 0 => malformed
  | fuel + 1 =>
      let merged ← mergedEntries fuel id
      match ← entriesAt id with
      | some entries =>
          settleKeys entries
          change id fun node => { node with content := .mapping (merged ++ entries) }
      | none => malformed

/-- Take the merge keys out of a mapping, one by one, and collect the entries that they bring. -/
def mergedEntries (fuel : Nat) (id : Nat) : Load (List (Nat × Nat)) := do
  match fuel with
  | 0 => malformed
  | fuel + 1 =>
      let entries := (← entriesAt id).getD []
      match ← firstMerge entries with
      | none => return []
      | some position =>
          let source := ((entries[position]?).map (·.2)).getD 0
          change id fun node => { node with content := .mapping (entries.eraseIdx position) }
          let brought ← match (← nodeAt source).content with
            | .mapping _ =>
                flatten fuel source
                pure ((← entriesAt source).getD [])
            | .sequence items => do
                let parts ← items.mapM fun item => do
                  match ← entriesAt item with
                  | none => malformed
                  | some _ =>
                      flatten fuel item
                      return (← entriesAt item).getD []
                pure parts.reverse.flatten
            | .scalar _ _ => malformed
          return brought ++ (← mergedEntries fuel id)

end

/-- The number of merge keys among the nodes. -/
def mergeCount (nodes : Array Node) : Nat :=
  nodes.toList.foldl (fun count node =>
    match node.content with
    | .mapping entries => count + entries.countP fun entry =>
        (nodes[entry.1]?).any fun key => key.tag = .merge
    | _ => count) 0

/-- Put the merged entries of a mapping in front of its own.  Every second step takes out a merge key,
which bounds the depth. -/
def flattenAll (id : Nat) : Load Unit := do
  flatten (2 * mergeCount (← get).nodes + 4) id

/-! ## Collections -/

/-- The cell of a node.  The cell of a collection is made empty and noted for filling. -/
def construct (id : Nat) : Load Nat := do
  match (← get).made.lookup id with
  | some cell => return cell
  | none =>
      let empty : Option Cell := match ← tagAt id with
        | .list | .orderedMap | .pairs => some (.list [])
        | .map => some (.dict [])
        | .set => some (.set [])
        | _ => none
      match empty with
      | some empty =>
          let cell ← add empty
          modify fun s =>
            { s with made := (id, cell) :: s.made, waiting := s.waiting ++ [(id, cell)] }
          return cell
      | none =>
          let cell ← add (.atom (← atom (← tagAt id) id))
          modify fun s => { s with made := (id, cell) :: s.made }
          return cell

/-- The dictionary of a mapping node. -/
def dictionary (id : Nat) : Load (List (Atom × Nat)) := do
  match ← entriesAt id with
  | none => malformed
  | some _ =>
      flattenAll id
      let entries := (← entriesAt id).getD []
      entries.foldlM (fun dict entry => do
        let key ← construct entry.1
        match (← get).cells[key]? with
        | some (.atom key) => return insertKey key (← construct entry.2) dict
        | _ => malformed) []

/-- The pairs of a sequence of mappings with one entry each. -/
def pairList (id : Nat) : Load (List Nat) := do
  match (← nodeAt id).content with
  | .sequence items =>
      items.mapM fun item => do
        match ← entriesAt item with
        | some [(key, value)] =>
            let key ← construct key
            let value ← construct value
            add (.pair key value)
        | _ => malformed
  | _ => malformed

/-- Fill the cell of a collection. -/
def fillFrom (id cell : Nat) : Load Unit := do
  match ← tagAt id with
  | .list =>
      match (← nodeAt id).content with
      | .sequence items => fill cell (.list (← items.mapM construct))
      | _ => malformed
  | .map => fill cell (.dict (← dictionary id))
  | .set => fill cell (.set ((← dictionary id).map (·.1)))
  | .orderedMap | .pairs => fill cell (.list (← pairList id))
  | _ => malformed

/-- Fill the cells of all waiting collections, and of those that are met on the way. -/
def fillAll (fuel : Nat) : Load Unit := do
  match fuel with
  | 0 => return ()
  | fuel + 1 =>
      match (← get).waiting with
      | [] => return ()
      | (id, cell) :: rest =>
          modify fun s => { s with waiting := rest }
          fillFrom id cell
          fillAll fuel

/-- Turn a whole graph into data.  Every node is filled at most once. -/
def whole (root : Nat) : Load Nat := do
  let cell ← construct root
  fillAll ((← get).nodes.size + 1)
  return cell

end Load

/-- The data of the one document of a text; an empty text holds nothing. -/
def load (text : List Char) : Except ReadError Data := do
  match ← compose text with
  | none => return ⟨#[.atom .null], 0⟩
  | some graph =>
      let (root, s) ← (Load.whole graph.root).run { nodes := graph.nodes }
      return ⟨s.cells, root⟩

end FormulaLint.Yaml
