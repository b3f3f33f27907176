/-!
# Diagnostics

Every phase of the analysis reports what it finds as diagnostics: a severity, a code, the source
range concerned and a message.  A code fixes its category and its usual severity.

Main results:

- Theorem {lit}`Span.cover_stop`: a cover ends where the later of two spans ends.
- Theorem {lit}`sortDiagnostics_perm`: sorting neither loses nor invents a diagnostic.
-/

namespace FormulaLint

/-- How serious a diagnostic is. -/
inductive Severity where
  | error
  | warning
deriving DecidableEq, Repr

namespace Severity

/-- The word for a severity. -/
def label : Severity → String
  | error => "error"
  | warning => "warning"

end Severity

/-- The phase of the analysis to which a diagnostic belongs. -/
inductive Category where
  | lexical
  | grammatical
  | resolution
  | delegation
deriving DecidableEq, Repr

namespace Category

/-- The word for a category. -/
def label : Category → String
  | lexical => "LexError"
  | grammatical => "ParseError"
  | resolution => "ResolutionWarning"
  | delegation => "DelegationWarning"

end Category

/-- What a diagnostic is about. -/
inductive DiagnosticCode where
  | unterminatedString
  | unterminatedComment
  | invalidCharacter
  | unexpectedToken
  | unbalancedDelimiter
  | missingOperand
  | chainedComparison
  | unresolvedIdentifier
  | contextUnavailable
  | nonDelegable
deriving DecidableEq, Repr

namespace DiagnosticCode

/-- The word for a code. -/
def label : DiagnosticCode → String
  | unterminatedString => "UnterminatedString"
  | unterminatedComment => "UnterminatedComment"
  | invalidCharacter => "InvalidCharacter"
  | unexpectedToken => "UnexpectedToken"
  | unbalancedDelimiter => "UnbalancedDelimiter"
  | missingOperand => "MissingOperand"
  | chainedComparison => "ChainedComparison"
  | unresolvedIdentifier => "UnresolvedIdentifier"
  | contextUnavailable => "ContextUnavailable"
  | nonDelegable => "NonDelegableClause"

/-- Every code. -/
def all : List DiagnosticCode :=
  [unterminatedString, unterminatedComment, invalidCharacter, unexpectedToken, unbalancedDelimiter,
   missingOperand, chainedComparison, unresolvedIdentifier, contextUnavailable, nonDelegable]

/-- The phase that reports a code. -/
def category : DiagnosticCode → Category
  | unterminatedString | unterminatedComment | invalidCharacter => .lexical
  | unexpectedToken | unbalancedDelimiter | missingOperand | chainedComparison => .grammatical
  | unresolvedIdentifier | contextUnavailable => .resolution
  | nonDelegable => .delegation

/-- The severity with which a code is reported. -/
def severity (code : DiagnosticCode) : Severity :=
  match code.category with
  | .lexical | .grammatical => .error
  | .resolution | .delegation => .warning

end DiagnosticCode

/-- A source range: offsets into the formula text, and the place of its first character in the
document, counted from one. -/
structure Span where
  start : Int
  stop : Int
  line : Int := 1
  column : Int := 1
deriving DecidableEq, Repr, Inhabited

namespace Span

/-- The span that runs from the start of the first to the end of the later of the two. -/
def cover (a b : Span) : Span :=
  { a with stop := max a.stop b.stop }

@[simp] theorem cover_start (a b : Span) : (a.cover b).start = a.start := rfl

/-- A cover ends where the later of two spans ends. -/
@[simp] theorem cover_stop (a b : Span) : (a.cover b).stop = max a.stop b.stop := rfl

end Span

/-- A message about a source range. -/
structure Diagnostic where
  severity : Severity
  code : DiagnosticCode
  span : Span
  message : String
deriving DecidableEq, Repr

namespace Diagnostic

/-- A diagnostic with the usual severity of its code. -/
def report (code : DiagnosticCode) (span : Span) (message : String) : Diagnostic :=
  ⟨code.severity, code, span, message⟩

/-- Whether the diagnostic is an error. -/
def isError (d : Diagnostic) : Bool :=
  d.severity = .error

/-- The phase to which the diagnostic belongs. -/
def category (d : Diagnostic) : Category :=
  d.code.category

/-- One line of text for a diagnostic. -/
def text (d : Diagnostic) : String :=
  toString d.span.line ++ ":" ++ toString d.span.column ++ ": " ++ d.severity.label ++ "[" ++
    d.code.label ++ "]: " ++ d.message

/-- Whether a diagnostic may stand before another one: it starts earlier, or it starts at the same
place and ends no later. -/
def before (a b : Diagnostic) : Bool :=
  a.span.start < b.span.start || (a.span.start = b.span.start && a.span.stop ≤ b.span.stop)

/-- The order of source places is transitive. -/
theorem before_trans (a b c : Diagnostic) (hab : a.before b) (hbc : b.before c) :
    a.before c := by
  simp only [before, Bool.or_eq_true, decide_eq_true_eq, Bool.and_eq_true] at *
  omega

/-- Any two source places are ordered. -/
theorem before_total (a b : Diagnostic) : (a.before b || b.before a) = true := by
  simp only [before, Bool.or_eq_true, decide_eq_true_eq, Bool.and_eq_true]
  omega

end Diagnostic

/-- Diagnostics in source order; those of one place keep their order. -/
def sortDiagnostics (ds : List Diagnostic) : List Diagnostic :=
  ds.mergeSort Diagnostic.before

/-- Sorting neither loses nor invents a diagnostic. -/
theorem sortDiagnostics_perm (ds : List Diagnostic) : (sortDiagnostics ds).Perm ds :=
  List.mergeSort_perm ds _

/-- Sorted diagnostics stand in source order. -/
theorem sortDiagnostics_pairwise (ds : List Diagnostic) :
    (sortDiagnostics ds).Pairwise (fun a b => a.before b = true) :=
  List.pairwise_mergeSort Diagnostic.before_trans Diagnostic.before_total ds

end FormulaLint
