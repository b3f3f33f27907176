import FormulaLint.Parser.Step
import FormulaLint.Token.Lex

/-!
# Reading a formula

A formula is a chain of clauses.  The parser folds its step over the tokens.  A clause that cannot
be read is abandoned: everything up to the next chaining separator outside all delimiters is
skipped, and reading goes on behind it.

Main results:

- Theorem {lit}`feedAll_append`: reading two lists of tokens one after the other is reading them
  joined.
-/

namespace FormulaLint

/-- What the parser does with the next token. -/
inductive Stage where
  /-- A new clause starts. -/
  | between
  /-- A clause is in progress. -/
  | within (work : Work)
  /-- A clause was abandoned inside the given number of delimiters. -/
  | skipping (depth : Nat)

/-- The clauses and diagnostics so far. -/
structure Progress where
  clauses : List Expr
  diagnostics : List Diagnostic
  stage : Stage

/-- A whole number with more digits than can be read. -/
structure OverlongNumber where
  digits : Nat
deriving DecidableEq, Repr

namespace OverlongNumber

/-- The wording for an overlong number. -/
def message (n : OverlongNumber) : String :=
  "Exceeds the limit (" ++ toString maxWholeDigits ++
    " digits) for integer string conversion: value has " ++ toString n.digits ++
    " digits; use sys.set_int_max_str_digits() to increase the limit"

end OverlongNumber

/-- Skip one token of an abandoned clause. -/
def skipToken (depth : Nat) (t : Token) : Stage :=
  match t.payload with
  | .separator (.opening _) => .skipping (depth + 1)
  | .separator (.closing _) => .skipping (depth - 1)
  | .separator .chaining => if depth = 0 then .between else .skipping depth
  | _ => .skipping depth

namespace Progress

/-- Nothing has been read. -/
def start : Progress :=
  ⟨[], [], .between⟩

/-- Take up what came of looking at a token; {lit}`skip` tells where to go on after a clause that
was abandoned. -/
def take (progress : Progress) (step : Step) (skip : Nat → Stage) :
    Except OverlongNumber Progress :=
  match step with
  | .next work => .ok { progress with stage := .within work }
  | .complete clause => .ok { progress with clauses := progress.clauses ++ [clause], stage := .between }
  | .abandon clause diagnostic depth =>
      .ok ⟨progress.clauses ++ clause.toList, progress.diagnostics ++ diagnostic.toList, skip depth⟩
  | .overlong digits => .error ⟨digits⟩

/-- Read one token. -/
def feed (s : Setting) (progress : Progress) (t : Token) : Except OverlongNumber Progress :=
  match progress.stage with
  | .skipping depth => .ok { progress with stage := skipToken depth t }
  | .within work => progress.take (work.step s (some t)) (skipToken · t)
  | .between =>
      if t.payload = .separator .chaining then .ok progress
      else progress.take (Work.start.step s (some t)) (skipToken · t)

/-- Read a list of tokens. -/
def feedAll (s : Setting) (progress : Progress) (tokens : List Token) :
    Except OverlongNumber Progress :=
  tokens.foldlM (feed s) progress

/-- Reading two lists of tokens one after the other is reading them joined. -/
theorem feedAll_append (s : Setting) (progress : Progress) (front back : List Token) :
    progress.feedAll s (front ++ back) =
      (progress.feedAll s front).bind fun middle => middle.feedAll s back := by
  simp only [feedAll, List.foldlM_append]
  rfl

/-- Come to the end of the formula. -/
def finish (s : Setting) (progress : Progress) : Except OverlongNumber Progress :=
  match progress.stage with
  | .within work => progress.take (work.step s none) fun _ => .between
  | .between | .skipping _ => .ok progress

end Progress

/-- Read the tokens of a formula to its end. -/
def readClauses (s : Setting) (tokens : List Token) : Except OverlongNumber Progress := do
  let progress ← Progress.start.feedAll s tokens
  progress.finish s

/-- The expression of a formula: the chain of its clauses. -/
def formulaExpr (clauses : List Expr) (start : Span) : Expr :=
  match clauses.getLast? with
  | some last => .chain clauses (start.cover last.span)
  | none => .chain [] start

/-- The outcome of reading a formula.  Diagnostics stand in source order. -/
structure Parsed where
  clauses : List Expr
  expr : Expr
  lexed : Lexed
  diagnostics : List Diagnostic

namespace Parsed

/-- The errors among the diagnostics. -/
def errors (parsed : Parsed) : List Diagnostic :=
  parsed.diagnostics.filter Diagnostic.isError

end Parsed

/-- A formula text and its placement without the leading equals sign that marks formulas. -/
def stripMarker (text : List Char) (placement : Placement) : List Char × Placement :=
  match text with
  | '=' :: rest => (rest, { placement with column := placement.column + 1 })
  | _ => (text, placement)

/-- Read a formula. -/
def parse (p : Profile) (text : String) (placement : Placement) : Except OverlongNumber Parsed := do
  let (body, placement) := stripMarker text.toList placement
  let lexed := lex p body placement
  let progress ← readClauses ⟨p, lexed.stop⟩ lexed.tokens
  let start := (lexed.tokens.head?.map Token.span).getD lexed.stop
  return {
    clauses := progress.clauses
    expr := formulaExpr progress.clauses start
    lexed
    diagnostics := sortDiagnostics (lexed.diagnostics ++ progress.diagnostics) }

end FormulaLint
