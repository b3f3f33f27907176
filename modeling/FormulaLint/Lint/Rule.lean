import FormulaLint.Analysis.Formula
import FormulaLint.Files.PathName

/-!
# Lint rules

A rule reports the diagnostics of some categories, errors apart from warnings.  A rule that is only
outlined has a name and a description, and cannot be checked.
-/

namespace FormulaLint

/-- The errors and warnings that are reported, each on a line of its own. -/
structure Findings where
  errors : List String := []
  warnings : List String := []
deriving DecidableEq, Repr

/-- Many reports one after the other. -/
def Findings.join (reports : List Findings) : Findings :=
  ⟨reports.flatMap errors, reports.flatMap warnings⟩

/-- The line that reports a diagnostic of a formula in a file. -/
def diagnosticLine (path : PathName) (a : Analysis) (d : Diagnostic) : String :=
  path.text ++ ":" ++ intText d.span.line ++ ":" ++ intText d.span.column ++ ": " ++ a.key.name ++
    ": [" ++ d.code.label ++ "] " ++ d.message

/-- The name of a rule and what it asks for. -/
structure RuleOutline where
  name : String
  description : String
deriving DecidableEq, Repr

/-- A rule that is only outlined was to be checked. -/
inductive RuleError where
  | onlyOutlined
deriving DecidableEq, Repr

namespace RuleError

/-- The wording of a rule error. -/
def message : RuleError → String
  | onlyOutlined => "Subclasses must implement check()"

end RuleError

namespace RuleOutline

/-- An outline says nothing about any formula. -/
def check (_ : RuleOutline) (_ : PathName) (_ : Analysis) : Except RuleError Findings :=
  .error .onlyOutlined

end RuleOutline

/-- A rule that reports the diagnostics of some categories. -/
structure LintRule extends RuleOutline where
  categories : List Category
deriving DecidableEq, Repr

namespace LintRule

/-- Whether a rule is about a diagnostic. -/
def concerns (rule : LintRule) (d : Diagnostic) : Bool :=
  rule.categories.contains d.category

/-- Check a rule against one analysed formula. -/
def check (rule : LintRule) (path : PathName) (a : Analysis) : Findings :=
  let concerned := a.diagnostics.filter rule.concerns
  ⟨(concerned.filter (·.isError)).map (diagnosticLine path a),
   (concerned.filter (!·.isError)).map (diagnosticLine path a)⟩

/-- A formula has to be read without errors. -/
def validSyntax : LintRule where
  name := "valid-formula-syntax"
  description := "Formula must lex and parse without errors"
  categories := [.lexical, .grammatical]

/-- Every name has to stand for something. -/
def resolvableReferences : LintRule where
  name := "resolvable-references"
  description := "Every name must resolve to a known symbol or record field"
  categories := [.resolution]

/-- Queries should run at the data source. -/
def delegableQueries : LintRule where
  name := "delegable-queries"
  description := "Filter, LookUp and Sort clauses should run at the data source"
  categories := [.delegation]

/-- The rules that are checked, in order. -/
def all : List LintRule :=
  [validSyntax, resolvableReferences, delegableQueries]

/-- Check every rule against one analysed formula. -/
def checkAll (path : PathName) (a : Analysis) : Findings :=
  .join (all.map fun rule => rule.check path a)

end LintRule

end FormulaLint
