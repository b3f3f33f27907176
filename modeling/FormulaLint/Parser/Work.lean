import FormulaLint.Expr.Basic
import FormulaLint.Locale
import FormulaLint.Token.Basic

/-!
# Clauses in progress

The parser reads a formula token by token.  Between two tokens it holds what it has read of the
current clause: for every open delimiter the finished parts in front of the current one, for the
expression in progress the operators that still wait for their right operand, and what may come
next.
-/

namespace FormulaLint

/-- An operator that waits for the operand behind it. -/
inductive Pending where
  | unary (op : Operator) (span : Span)
  | binary (op : Operator) (left : Expr)

/-- What an open delimiter belongs to, with its finished parts.  A record also holds the name of
the field whose value is being read. -/
inductive Bracket where
  | group
  | call (function : String) (arguments : List Expr) (qualifiers : List String) (start : Span)
  | record (fields : List Field) (name : String) (nameSpan : Span)
  | table (elements : List Expr)

namespace Bracket

/-- The kind of delimiter around a bracket's parts. -/
def delimiter : Bracket → Delimiter
  | group | call _ _ _ _ => .parenthesis
  | record _ _ _ => .brace
  | table _ => .bracket

end Bracket

/-- An open delimiter: the operators that wait around it, and the chain of expressions in progress
inside it. -/
structure Level where
  bracket : Bracket
  opening : Token
  outer : List Pending
  chainStart : Span
  clauses : List Expr

/-- What the parser has just read, and so what may come next. -/
inductive Expectation where
  /-- An operand has to come. -/
  | operand
  /-- Behind the parenthesis of a group, which must not be empty. -/
  | groupStart
  /-- Behind the parenthesis of a call. -/
  | callStart
  /-- A chain of expressions has to come. -/
  | chainStart
  /-- Behind the separator of a chain, where the chain may end. -/
  | chainNext
  /-- Behind the bracket of a table. -/
  | elementStart
  /-- Behind the brace of a record. -/
  | fieldStart
  /-- The name of a field has to come. -/
  | fieldName
  /-- The colon behind the name of a field has to come. -/
  | colon
  /-- A name was read, which a parenthesis turns into a call. -/
  | named (name : String) (quoted : Bool) (span : Span)
  /-- An expression was read, whose members may be accessed. -/
  | primary (e : Expr)
  /-- The name of a member has to come. -/
  | memberName (base : Expr) (separator : Operator) (separatorSpan : Span)
  /-- The name of a member was read, which a parenthesis may turn into a qualified call. -/
  | memberRead (base : Expr) (separator : Operator) (separatorSpan : Span) (name : String)
      (nameSpan : Span)
  /-- An expression with percent signs was read. -/
  | suffixed (e : Expr)

/-- A clause in progress.  Delimiters and operators are listed from the inside out; {lit}`last` is
the place of the last token read. -/
structure Work where
  pending : List Pending
  levels : List Level
  expect : Expectation
  last : Span

namespace Work

/-- Nothing of a clause has been read. -/
def start : Work :=
  ⟨[], [], .operand, default⟩

/-- The number of open delimiters. -/
def depth (w : Work) : Nat :=
  w.levels.length

/-- Go on behind a token. -/
def advance (w : Work) (t : Token) (expect : Expectation) : Work :=
  { w with expect, last := t.span }

/-- Open a delimiter. -/
def openBracket (w : Work) (t : Token) (bracket : Bracket) (expect : Expectation) : Work :=
  ⟨[], ⟨bracket, t, w.pending, t.span, []⟩ :: w.levels, expect, t.span⟩

end Work

/-- What comes of looking at one more token. -/
inductive Step where
  /-- The token belongs to the clause. -/
  | next (work : Work)
  /-- The clause ended in front of the token. -/
  | complete (clause : Expr)
  /-- The clause cannot go on; it may have been complete already.  No diagnostic is given for a
  token that was reported before. -/
  | abandon (clause : Option Expr) (diagnostic : Option Diagnostic) (depth : Nat)
  /-- A whole number has more digits than can be read. -/
  | overlong (digits : Nat)

/-- What the parser needs to know of the formula as a whole: the profile, and the place of its
end. -/
structure Setting where
  profile : Profile
  stop : Span

/-- A token to look at; {lit}`none` stands for the end of the formula. -/
abbrev Look := Option Token

namespace Look

/-- The place of a token or of the end. -/
def span (look : Look) (s : Setting) : Span :=
  match look with
  | some t => t.span
  | none => s.stop

/-- A token or the end as a message describes it. -/
def describe : Look → String
  | some t => t.describe
  | none => "end of formula"

/-- The separator at which the parser looks. -/
def separator? : Look → Option Separator
  | some t =>
      match t.payload with
      | .separator sep => some sep
      | _ => none
  | none => none

/-- The operator at which the parser looks. -/
def operator? : Look → Option Operator
  | some t =>
      match t.payload with
      | .operator op => some op
      | _ => none
  | none => none

/-- The identifier at which the parser looks, with its name. -/
def identifier? : Look → Option (Token × String)
  | some t =>
      match t.payload with
      | .identifier name _ => some (t, name)
      | _ => none
  | none => none

/-- A diagnostic about a token or the end; none for an error token, which has one already. -/
def diagnostic? (look : Look) (s : Setting) (code : DiagnosticCode) (message : String) :
    Option Diagnostic :=
  match look with
  | some t => if t.isError then none else some (.report code t.span message)
  | none => some (.report code s.stop message)

end Look

end FormulaLint
