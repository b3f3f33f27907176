import FormulaLint.Diagnostic
import FormulaLint.Number.Value
import FormulaLint.Operator

/-!
# Expressions

The tree of a formula.  A reference starts from a name, which is bound by the resolver, or from
another expression; either way a chain of member names may follow.
-/

namespace FormulaLint

/-- The value of a literal.  A number keeps the text it was written with, if there is one. -/
inductive Literal where
  | logical (value : Bool)
  | number (value : Number) (text : String)
  | text (value : String)
deriving DecidableEq, Repr

/-- A name at the start of a reference, by the way it is looked up. -/
inductive Identifier where
  | plain (name : String)
  | context (name : String)
  | global (name : String)
  | field (source name : String)
deriving DecidableEq, Repr

namespace Identifier

/-- The name that is looked up. -/
def name : Identifier → String
  | plain name | context name | global name | field _ name => name

end Identifier

/-- The names that stand for the current record or control. -/
def contextKeywords : List String :=
  ["ThisItem", "ThisRecord", "Self", "Parent"]

/-- One member access: the operator in front of the name, and the name. -/
structure Segment where
  separator : Operator
  name : String
  span : Span
deriving DecidableEq, Repr

mutual

/-- An expression with its source range.  A hole stands for a part that is missing from a tree put
together by hand. -/
inductive Expr where
  | literal (value : Literal) (span : Span)
  | name (identifier : Identifier) (identifierSpan : Span) (chain : List Segment) (span : Span)
  | member (base : Expr) (chain : List Segment) (span : Span)
  | call (function : String) (arguments : List Expr) (qualifiers : List String) (span : Span)
  | record (fields : List Field) (span : Span)
  | table (elements : List Expr) (span : Span)
  | unary (op : Operator) (operand : Expr) (span : Span)
  | binary (op : Operator) (left right : Expr) (span : Span)
  | chain (clauses : List Expr) (span : Span)
  | hole

/-- A field of a record: its name, its value and its source range. -/
inductive Field where
  | mk (name : String) (value : Expr) (span : Span)

end

instance : Inhabited Expr := ⟨.hole⟩

namespace Field

/-- The name of a field. -/
def name : Field → String
  | mk name _ _ => name

/-- The value of a field. -/
def value : Field → Expr
  | mk _ value _ => value

/-- The source range of a field. -/
def span : Field → Span
  | mk _ _ span => span

end Field

namespace Expr

/-- The source range of an expression. -/
def span : Expr → Span
  | literal _ span | name _ _ _ span | member _ _ span | call _ _ _ span | record _ span
  | table _ span | unary _ _ span | binary _ _ _ span | chain _ span => span
  | hole => default

/-- The name of a function with its qualifiers. -/
def qualifiedName (qualifiers : List String) (function : String) : String :=
  ".".intercalate (qualifiers ++ [function])

/-- The parts of an expression, in source order. -/
def children : Expr → List Expr
  | literal _ _ | name _ _ _ _ | hole => []
  | member base _ _ => [base]
  | call _ arguments _ _ => arguments
  | record fields _ => fields.map Field.value
  | table elements _ => elements
  | unary _ operand _ => [operand]
  | binary _ left right _ => [left, right]
  | chain clauses _ => clauses

/-- Whether an expression is a literal. -/
def isLiteral : Expr → Bool
  | literal _ _ => true
  | _ => false

end Expr

end FormulaLint
