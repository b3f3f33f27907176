import FormulaLint.Expr.Basic

/-!
# Walking expressions

A part of an expression is addressed by its path: the position of the child to take at each step
from the root.  Walking lists every part, each one before its own parts.

Main results:

- Theorem {lit}`Expr.walk_eq`: an expression comes first, then its children's walks in order.
-/

namespace FormulaLint

/-- The way from the root to a part: the position of the child to take, step by step. -/
abbrev Path := List Nat

mutual

/-- Every part of an expression with its path, depth first; {lit}`here` is the path of the
expression itself. -/
def Expr.walkFrom (here : Path) : Expr → List (Path × Expr)
  | .literal value span => [(here, .literal value span)]
  | .name identifier identifierSpan chain span =>
      [(here, .name identifier identifierSpan chain span)]
  | .member base chain span => (here, .member base chain span) :: base.walkFrom (here ++ [0])
  | .call function arguments qualifiers span =>
      (here, .call function arguments qualifiers span) :: walkAll here 0 arguments
  | .record fields span => (here, .record fields span) :: walkFields here 0 fields
  | .table elements span => (here, .table elements span) :: walkAll here 0 elements
  | .unary op operand span => (here, .unary op operand span) :: operand.walkFrom (here ++ [0])
  | .binary op left right span =>
      (here, .binary op left right span) ::
        (left.walkFrom (here ++ [0]) ++ right.walkFrom (here ++ [1]))
  | .chain clauses span => (here, .chain clauses span) :: walkAll here 0 clauses
  | .hole => [(here, .hole)]

/-- The walks of the children from position {lit}`index` on. -/
def walkAll (here : Path) (index : Nat) : List Expr → List (Path × Expr)
  | [] => []
  | e :: rest => e.walkFrom (here ++ [index]) ++ walkAll here (index + 1) rest

/-- The walks of the field values from position {lit}`index` on. -/
def walkFields (here : Path) (index : Nat) : List Field → List (Path × Expr)
  | [] => []
  | .mk _ value _ :: rest => value.walkFrom (here ++ [index]) ++ walkFields here (index + 1) rest

end

namespace Expr

/-- Every part of an expression with its path, each one before its own parts. -/
def walk (e : Expr) : List (Path × Expr) :=
  e.walkFrom []

/-- The part of an expression at a path. -/
def at? : Expr → Path → Option Expr
  | e, [] => some e
  | e, i :: rest => (e.children[i]?).bind fun child => child.at? rest

end Expr

/-- Walking field values is walking the list of values. -/
theorem walkFields_eq (here : Path) (index : Nat) (fields : List Field) :
    walkFields here index fields = walkAll here index (fields.map Field.value) := by
  induction fields generalizing index with
  | nil => simp [walkFields, walkAll]
  | cons field rest ih =>
      obtain ⟨name, value, span⟩ := field
      simp [walkFields, walkAll, ih, Field.value]

/-- An expression comes first in its walk, then its children's walks in order. -/
theorem Expr.walkFrom_eq (here : Path) (e : Expr) :
    e.walkFrom here = (here, e) :: walkAll here 0 e.children := by
  cases e <;> simp [Expr.walkFrom, Expr.children, walkAll, walkFields_eq]

/-- An expression comes first, then its children's walks in order. -/
theorem Expr.walk_eq (e : Expr) : e.walk = ([], e) :: walkAll [] 0 e.children :=
  e.walkFrom_eq []

/-! ## Calls -/

/-- A function call found in an expression: its path, how many calls surround it, and its parts. -/
structure CallSite where
  path : Path
  depth : Nat
  function : String
  arguments : List Expr
  qualifiers : List String
  span : Span

namespace CallSite

/-- The name of the called function with its qualifiers. -/
def qualifiedName (site : CallSite) : String :=
  Expr.qualifiedName site.qualifiers site.function

/-- Whether a call has one of the given names; without names every call counts. -/
def hasName (site : CallSite) : Option (List String) → Bool
  | none => true
  | some names => names.contains site.function || names.contains site.qualifiedName

end CallSite

mutual

/-- Every call of an expression in walking order; {lit}`depth` calls surround the expression. -/
def Expr.callsFrom (here : Path) (depth : Nat) : Expr → List CallSite
  | .literal _ _ | .name _ _ _ _ | .hole => []
  | .member base _ _ => base.callsFrom (here ++ [0]) depth
  | .call function arguments qualifiers span =>
      ⟨here, depth, function, arguments, qualifiers, span⟩ :: callsAll here 0 (depth + 1) arguments
  | .record fields _ => callsFields here 0 depth fields
  | .table elements _ => callsAll here 0 depth elements
  | .unary _ operand _ => operand.callsFrom (here ++ [0]) depth
  | .binary _ left right _ =>
      left.callsFrom (here ++ [0]) depth ++ right.callsFrom (here ++ [1]) depth
  | .chain clauses _ => callsAll here 0 depth clauses

/-- The calls of the children from position {lit}`index` on. -/
def callsAll (here : Path) (index depth : Nat) : List Expr → List CallSite
  | [] => []
  | e :: rest => e.callsFrom (here ++ [index]) depth ++ callsAll here (index + 1) depth rest

/-- The calls of the field values from position {lit}`index` on. -/
def callsFields (here : Path) (index depth : Nat) : List Field → List CallSite
  | [] => []
  | .mk _ value _ :: rest =>
      value.callsFrom (here ++ [index]) depth ++ callsFields here (index + 1) depth rest

end

namespace Expr

/-- The calls with one of the given names in the expression at a path, the most deeply nested
first; calls of one depth keep their walking order. -/
def callsAt (e : Expr) (here : Path) (names : Option (List String)) : List CallSite :=
  ((e.callsFrom here 0).filter (·.hasName names)).mergeSort fun a b => b.depth ≤ a.depth

/-- The calls with one of the given names, the most deeply nested first. -/
def calls (e : Expr) (names : Option (List String)) : List CallSite :=
  e.callsAt [] names

end Expr

end FormulaLint
