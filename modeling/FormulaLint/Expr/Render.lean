import FormulaLint.Expr.Dump
import FormulaLint.Locale

/-!
# Writing expressions

An expression is written in a profile with as few parentheses as its structure needs.  Each
rendered part carries the level of its outermost operator, and a part is put between parentheses
where a tighter level is required.
-/

namespace FormulaLint

/-- A rendered expression: its text and the level of its outermost operator. -/
structure Rendered where
  text : List Char
  level : Int
deriving DecidableEq, Repr

/-- Put a text between parentheses.  A blank keeps a word for an operator apart from them. -/
def parenthesize (text : List Char) : List Char :=
  if startsWithOperatorWord text then '(' :: ' ' :: (text ++ [')']) else '(' :: (text ++ [')'])

/-- Keep a leading word for an operator apart from the delimiter in front of it. -/
def spaceOperatorWord (text : List Char) : List Char :=
  if startsWithOperatorWord text then ' ' :: text else text

namespace Rendered

/-- The text for a place that takes the given level and everything tighter. -/
def atLeast (r : Rendered) (level : Int) : List Char :=
  if r.level < level then parenthesize r.text else r.text

/-- The text for a place that takes everything but a chain. -/
def unchained (r : Rendered) : List Char :=
  if r.level = chainLevel then parenthesize r.text else r.text

end Rendered

/-- The text between list items. -/
def listGap (p : Profile) : List Char :=
  p.listSeparator.toList ++ [' ']

/-- The text between chained expressions. -/
def chainGap (p : Profile) : List Char :=
  p.chainingSeparator.toList ++ [' ']

/-- A binary operation on rendered operands.  An operand of the same level needs parentheses on
the side to which the operator does not group. -/
def renderBinary (op : Operator) (left right : Rendered) : Rendered :=
  let (level, grouping) := op.binding?.getD (0, .left)
  let needed : Int := level
  let leftText := left.atLeast (if grouping = .left then needed else needed + 1)
  let rightText := right.atLeast (if grouping = .right then needed else needed + 1)
  ⟨leftText ++ ' ' :: (op.spelling.toList ++ ' ' :: rightText), needed⟩

/-- A unary operation on a rendered operand. -/
def renderUnary (op : Operator) (operand : Rendered) : Rendered :=
  if op.isPostfix then ⟨operand.atLeast postfixLevel ++ op.spelling.toList, postfixLevel⟩
  else
    let text := operand.atLeast prefixLevel
    let gap := if op = .notWord || startsWithOperatorWord text then [' '] else []
    ⟨op.spelling.toList ++ gap ++ text, prefixLevel⟩

/-- A chain of member names behind a rendered base. -/
def renderChain (base : List Char) (chain : List Segment) : Rendered :=
  if chain.isEmpty then ⟨base, primaryLevel⟩ else ⟨base ++ chainText chain, memberLevel⟩

mutual

/-- Write an expression in a profile; a hole is left empty. -/
def Expr.render (p : Profile) : Expr → Rendered
  | .literal value _ => ⟨value.render p.decimalChar, primaryLevel⟩
  | .name identifier _ chain _ => renderChain identifier.render chain
  | .member base chain _ => renderChain ((base.render p).atLeast primaryLevel) chain
  | .call function arguments qualifiers _ =>
      let inner := (listGap p).intercalate ((renderAll p arguments).map Rendered.text)
      ⟨calleeText qualifiers function ++ '(' :: (spaceOperatorWord inner ++ [')']), primaryLevel⟩
  | .record fields _ =>
      ⟨'\x7b' :: ((listGap p).intercalate (renderFields p fields) ++ ['\x7d']), primaryLevel⟩
  | .table elements _ =>
      let inner := (listGap p).intercalate ((renderAll p elements).map Rendered.unchained)
      ⟨'[' :: (spaceOperatorWord inner ++ [']']), primaryLevel⟩
  | .unary op operand _ => renderUnary op (operand.render p)
  | .binary op left right _ => renderBinary op (left.render p) (right.render p)
  | .chain clauses _ =>
      match renderAll p clauses with
      | [only] => only
      | several => ⟨(chainGap p).intercalate (several.map Rendered.text), chainLevel⟩
  | .hole => ⟨[], primaryLevel⟩

/-- Write a list of expressions. -/
def renderAll (p : Profile) : List Expr → List Rendered
  | [] => []
  | e :: rest => e.render p :: renderAll p rest

/-- Write a list of fields. -/
def renderFields (p : Profile) : List Field → List (List Char)
  | [] => []
  | .mk name value _ :: rest =>
      (nameText name ++ ':' :: ' ' :: (value.render p).unchained) :: renderFields p rest

end

namespace Expr

/-- What is wrong with the root of an expression that is to be written in a profile. -/
def renderError? : Expr → Option RenderError
  | hole => some .hole
  | binary op _ _ _ => if op.binding?.isNone then some (.unknownOperator op.spelling) else none
  | _ => none

/-- The text of an expression in a profile. -/
def unparse (p : Profile) (e : Expr) : Except RenderError String :=
  match e.walk.findSome? fun part => part.2.renderError? with
  | some error => .error error
  | none => .ok (String.ofList (e.render p).text)

end Expr

end FormulaLint
