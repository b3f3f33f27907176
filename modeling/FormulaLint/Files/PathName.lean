import FormulaLint.Text.Order
import FormulaLint.Text.Split

/-!
# Path names

A path name is a list of names, and starts at the current directory or at the root.  Empty names and
single dots are left out; two dots stay, because they depend on what is there.

Main results:

- Theorems {lit}`PathName.before_trans` and {lit}`PathName.before_total`: path names are ordered.
-/

namespace FormulaLint

/-- Where a path name starts.  A root that is written with two slashes stays apart. -/
inductive PathStart where
  | current
  | root
  | doubleRoot
deriving DecidableEq, Repr

namespace PathStart

/-- The text in front of the names. -/
def text : PathStart → String
  | current => ""
  | root => "/"
  | doubleRoot => "//"

end PathStart

/-- A path name. -/
structure PathName where
  start : PathStart := .current
  parts : List String := []
deriving DecidableEq, Repr

namespace PathName

/-- The names of a text between slashes. -/
def names (cs : List Char) : List String :=
  ((Text.split '/' cs).map String.ofList).filter fun name => name ≠ "" && name ≠ "."

/-- The path name that a text stands for. -/
def ofText (text : String) : PathName :=
  let cs := text.toList
  let slashes := (cs.takeWhile (· == '/')).length
  let start := if slashes = 0 then PathStart.current else if slashes = 2 then .doubleRoot else .root
  ⟨start, names cs⟩

/-- The text of a path name; the current directory is a dot. -/
def text (p : PathName) : String :=
  if p.start = .current ∧ p.parts = [] then "."
  else p.start.text ++ "/".intercalate p.parts

/-- The last name, empty where there is none. -/
def name (p : PathName) : String :=
  p.parts.getLast?.getD ""

/-- The path name of something in a directory. -/
def child (p : PathName) (name : String) : PathName :=
  { p with parts := p.parts ++ [name] }

/-- The names that decide the order of path names, the root among them. -/
def orderKey (p : PathName) : List String :=
  if p.start = .current then p.parts else p.start.text :: p.parts

/-- Whether a path name may stand before another one. -/
def before (a b : PathName) : Bool :=
  Text.listBefore a.orderKey b.orderKey

/-- The order of path names is transitive. -/
theorem before_trans (a b c : PathName) (hab : a.before b) (hbc : b.before c) : a.before c :=
  Text.listBefore_trans hab hbc

/-- Any two path names are ordered. -/
theorem before_total (a b : PathName) : (a.before b || b.before a) = true :=
  Text.listBefore_total a.orderKey b.orderKey

end PathName

end FormulaLint
