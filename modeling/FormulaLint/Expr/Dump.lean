import FormulaLint.Expr.Name
import FormulaLint.Expr.Walk

/-!
# The canonical form of an expression

The canonical form writes every operator between parentheses and takes the separators of the
dot-decimal profile, so that structure can be compared without regard to places.
-/

namespace FormulaLint

/-- Why an expression has no text. -/
inductive RenderError where
  | hole
  | unknownOperator (spelling : String)
deriving DecidableEq, Repr

mutual

/-- The canonical form of an expression; a hole is left empty. -/
def Expr.dumpChars : Expr → List Char
  | .literal value _ => value.render '.'
  | .name identifier _ chain _ => identifier.render ++ chainText chain
  | .member base chain _ => base.dumpChars ++ chainText chain
  | .call function arguments qualifiers _ =>
      calleeText qualifiers function ++ '(' :: ([',', ' '].intercalate (dumpAll arguments) ++ [')'])
  | .record fields _ => '\x7b' :: ([',', ' '].intercalate (dumpFields fields) ++ ['\x7d'])
  | .table elements _ => '[' :: ([',', ' '].intercalate (dumpAll elements) ++ [']'])
  | .unary op operand _ =>
      if op.isPostfix then '(' :: (operand.dumpChars ++ op.spelling.toList ++ [')'])
      else if op = .notWord then '(' :: (op.spelling.toList ++ ' ' :: (operand.dumpChars ++ [')']))
      else '(' :: (op.spelling.toList ++ operand.dumpChars ++ [')'])
  | .binary op left right _ =>
      '(' :: (left.dumpChars ++ ' ' :: (op.spelling.toList ++ ' ' :: (right.dumpChars ++ [')'])))
  | .chain clauses _ => [';', ' '].intercalate (dumpAll clauses)
  | .hole => []

/-- The canonical forms of a list of expressions. -/
def dumpAll : List Expr → List (List Char)
  | [] => []
  | e :: rest => e.dumpChars :: dumpAll rest

/-- The canonical forms of a list of fields. -/
def dumpFields : List Field → List (List Char)
  | [] => []
  | .mk name value _ :: rest => (nameText name ++ ':' :: ' ' :: value.dumpChars) :: dumpFields rest

end

namespace Expr

/-- What is wrong with the root of an expression that is to be written canonically. -/
def dumpError? : Expr → Option RenderError
  | hole => some .hole
  | _ => none

/-- The canonical form of an expression without holes. -/
def dump (e : Expr) : Except RenderError String :=
  match e.walk.findSome? fun part => part.2.dumpError? with
  | some error => .error error
  | none => .ok (String.ofList e.dumpChars)

end Expr

end FormulaLint
