import FormulaLint.Expr.Name
import FormulaLint.Text.Shown

/-!
# Expressions in messages

A message shows an expression with all its parts and places: the sort of each node, and each part
under its name.
-/

namespace FormulaLint

/-- A node or record in a message: its sort, and each part under its name. -/
def shownNode (sort : String) (parts : List (String × String)) : String :=
  sort ++ "(" ++ ", ".intercalate (parts.map fun part => part.1 ++ "=" ++ part.2) ++ ")"

/-- A list in a message; a single item keeps its comma. -/
def shownTuple : List String → String
  | [only] => "(" ++ only ++ ",)"
  | items => "(" ++ ", ".intercalate items ++ ")"

/-- A source range in a message. -/
def Span.shown (s : Span) : String :=
  shownNode "Span" [("start", toString s.start), ("end", toString s.stop),
    ("line", toString s.line), ("column", toString s.column)]

/-- A literal in a message. -/
def Literal.shown (span : Span) (l : Literal) : String :=
  let (kind, value) := match l with
    | .logical b => ("LOGICAL: 'logical'", if b then "True" else "False")
    | .number n _ => ("NUMBER: 'number'", n.text)
    | .text s => ("TEXT: 'text'", Text.shown s)
  shownNode "Literal" [("kind", "<LiteralKind." ++ kind ++ ">"), ("value", value),
    ("text", Text.shown l.sourceText), ("span", span.shown)]

/-- An identifier in a message. -/
def Identifier.shown (span : Span) (i : Identifier) : String :=
  let (kind, scope) := match i with
    | .plain _ => ("PLAIN: 'plain'", "None")
    | .context _ => ("CONTEXT: 'context'", "None")
    | .global _ => ("DISAMBIGUATED: 'disambiguated'", "None")
    | .field source _ => ("DISAMBIGUATED: 'disambiguated'", Text.shown source)
  shownNode "Identifier" [("name", Text.shown i.name), ("kind", "<IdentifierKind." ++ kind ++ ">"),
    ("scope", scope), ("span", span.shown)]

/-- The members of a reference in a message. -/
def shownChain (chain : List Segment) : String :=
  shownTuple (chain.map fun s =>
    shownNode "Segment" [("separator", Text.shown s.separator.spelling), ("name", Text.shown s.name),
      ("span", s.span.shown)])

mutual

/-- An expression in a message. -/
def Expr.shown : Expr → String
  | .literal value span => value.shown span
  | .name identifier identifierSpan chain span =>
      shownNode "Reference" [("base", identifier.shown identifierSpan), ("chain", shownChain chain),
        ("span", span.shown)]
  | .member base chain span =>
      shownNode "Reference" [("base", base.shown), ("chain", shownChain chain),
        ("span", span.shown)]
  | .call function arguments qualifiers span =>
      shownNode "FunctionCall" [("name", Text.shown function),
        ("args", shownTuple (shownAll arguments)),
        ("namespace", shownTuple (qualifiers.map Text.shown)), ("span", span.shown)]
  | .record fields span =>
      shownNode "InlineRecord" [("fields", shownTuple (shownFields fields)), ("span", span.shown)]
  | .table elements span =>
      shownNode "InlineTable" [("elements", shownTuple (shownAll elements)), ("span", span.shown)]
  | .unary op operand span =>
      shownNode "UnaryOp" [("op", Text.shown op.spelling), ("operand", operand.shown),
        ("span", span.shown)]
  | .binary op left right span =>
      shownNode "BinaryOp" [("op", Text.shown op.spelling), ("left", left.shown),
        ("right", right.shown), ("span", span.shown)]
  | .chain clauses span =>
      shownNode "ChainedExpr" [("sequence", shownTuple (shownAll clauses)), ("span", span.shown)]
  | .hole => "Node()"

/-- A list of expressions in a message. -/
def shownAll : List Expr → List String
  | [] => []
  | e :: rest => e.shown :: shownAll rest

/-- A list of fields in a message. -/
def shownFields : List Field → List String
  | [] => []
  | .mk name value span :: rest =>
      shownNode "RecordField" [("name", Text.shown name), ("value", value.shown),
        ("span", span.shown)] :: shownFields rest

end

end FormulaLint
