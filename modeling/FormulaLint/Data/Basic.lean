import FormulaLint.Data.Atom

/-!
# Data

Data is made of cells: single values, lists, pairs, dictionaries and sets.  Cells know their parts by
number, because a part may be shared, and a list or dictionary may even hold itself.
-/

namespace FormulaLint

/-- A cell of data; parts are given by their numbers. -/
inductive Cell where
  | atom (value : Atom)
  | list (items : List Nat)
  | pair (first second : Nat)
  | dict (entries : List (Atom × Nat))
  | set (items : List Atom)
deriving DecidableEq, Repr

/-- Cells and the number of the one that stands for the whole. -/
structure Data where
  cells : Array Cell
  root : Nat
deriving DecidableEq, Repr

/-- Put an entry into a dictionary.  A key that is there keeps its place and its spelling and gets the
new value. -/
def insertKey {α : Type} (key : Atom) (value : α) : List (Atom × α) → List (Atom × α)
  | [] => [(key, value)]
  | (other, old) :: rest =>
      if other.sameKey key then (other, value) :: rest
      else (other, old) :: insertKey key value rest

namespace Data

/-- The cell with a number. -/
def cell (d : Data) (id : Nat) : Cell :=
  d.cells[id]?.getD (.atom .null)

/-- The part of a dictionary under a text. -/
def under? (entries : List (Atom × Nat)) (key : String) : Option Nat :=
  (entries.find? fun entry => entry.1.sameKey (.text key)).map (·.2)

/-- A cell as a message shows it; a list or dictionary inside itself is shown by dots.  The cells in
{lit}`around` hold the one that is shown. -/
def shownFrom (d : Data) : Nat → List Nat → Nat → String
  | 0, _, _ => ""
  | fuel + 1, around, id =>
      let part := d.shownFrom fuel (id :: around)
      let again := around.contains id
      match d.cell id with
      | .atom value => value.shown
      | .list items =>
          if again then "[...]" else "[" ++ ", ".intercalate (items.map part) ++ "]"
      | .pair first second =>
          if again then "(...)" else "(" ++ part first ++ ", " ++ part second ++ ")"
      | .dict entries =>
          if again then "\x7b...\x7d"
          else
            "\x7b" ++ ", ".intercalate (entries.map fun entry =>
              entry.1.shown ++ ": " ++ part entry.2) ++ "\x7d"
      | .set items =>
          if items.isEmpty then "set()"
          else "\x7b" ++ ", ".intercalate (items.map Atom.shown) ++ "\x7d"

/-- A cell as a message shows it.  Each step inwards goes to a cell that is not around yet, so their
number bounds the depth. -/
def shown (d : Data) (id : Nat) : String :=
  d.shownFrom (d.cells.size + 2) [] id

/-- The single values that a message shows of a cell. -/
def shownAtomsFrom (d : Data) : Nat → List Nat → Nat → List Atom
  | 0, _, _ => []
  | fuel + 1, around, id =>
      let part := d.shownAtomsFrom fuel (id :: around)
      let again := around.contains id
      match d.cell id with
      | .atom value => [value]
      | .list items => if again then [] else items.flatMap part
      | .pair first second => if again then [] else part first ++ part second
      | .dict entries => if again then [] else entries.flatMap fun entry => entry.1 :: part entry.2
      | .set items => items

/-- Whether a message would have to show a number with too many digits to be written. -/
def isOverlong (d : Data) (id : Nat) : Bool :=
  (d.shownAtomsFrom (d.cells.size + 2) [] id).any Atom.isOverlong

/-- The plain text of a cell. -/
def plain (d : Data) (id : Nat) : String :=
  match d.cell id with
  | .atom value => value.plain
  | _ => d.shown id

/-- The word for the sort of a cell. -/
def typeName (d : Data) (id : Nat) : String :=
  match d.cell id with
  | .atom value => value.typeName
  | .list _ => "list"
  | .pair _ _ => "tuple"
  | .dict _ => "dict"
  | .set _ => "set"

end Data

end FormulaLint
