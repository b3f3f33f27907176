import FormulaLint.Document.Load
import FormulaLint.Files.Glob
import FormulaLint.Lint.Config
import FormulaLint.Lint.Rule

/-!
# Linting files

Every formula of a document is analysed and checked against every rule.  A document with a fault of
its own is reported by one error.  The files of a directory that have the form of the configured
pattern are linted in the order of their paths; the configuration itself is left out.
-/

namespace FormulaLint

/-- What is needed to lint documents: a configuration and, if there is one, a bound on the number of
formulas that are analysed at a time. -/
structure Linter where
  config : Config := {}
  workers : Option Int := none
deriving DecidableEq, Repr

/-- Why the formulas of a file cannot be analysed. -/
inductive LintError where
  | document (error : DocumentError)
  | batch (error : BatchError)
deriving DecidableEq, Repr

namespace LintError

/-- The wording of an error that is reported as a fault of the document. -/
def documentMessage? : LintError → Option String
  | document error => error.message?
  | batch _ => none

end LintError

/-- Why the files of a directory cannot be linted. -/
inductive LintFault where
  | pattern (error : GlobError)
  | file (error : LintError)
deriving DecidableEq, Repr

/-- The outcome of linting many files. -/
structure LintTotals where
  checked : Nat := 0
  findings : Findings := {}
deriving DecidableEq, Repr

namespace LintTotals

/-- The number of errors. -/
def errorCount (totals : LintTotals) : Nat :=
  totals.findings.errors.length

/-- The number of warnings. -/
def warningCount (totals : LintTotals) : Nat :=
  totals.findings.warnings.length

end LintTotals

namespace Linter

/-- Analyse every formula of a file. -/
def analyzeFile (linter : Linter) (wording : Yaml.Wording) (tree : FileTree) (path : PathName) :
    Except LintError (List Analysis) := do
  let document ← (loadDocument wording tree path).mapError .document
  (analyzeBatch (linter.config.setting document.symbols) linter.workers document.formulas).mapError
    .batch

/-- Lint a file. -/
def lintFile (linter : Linter) (wording : Yaml.Wording) (tree : FileTree) (path : PathName) :
    Except LintError Findings :=
  match linter.analyzeFile wording tree path with
  | .ok analyses => .ok (.join (analyses.map (LintRule.checkAll path)))
  | .error error =>
      match error.documentMessage? with
      | some message => .ok ⟨[path.text ++ ": " ++ message], []⟩
      | none => .error error

/-- The files of a directory that are linted, in order. -/
def files (linter : Linter) (tree : FileTree) (directory : PathName) :
    Except GlobError (List PathName) := do
  let found ← tree.glob directory linter.config.pattern
  return (found.filter fun path => path.name ≠ configName).mergeSort PathName.before

/-- Lint the files of a directory. -/
def lintAll (linter : Linter) (wording : Yaml.Wording) (tree : FileTree) (directory : PathName) :
    Except LintFault LintTotals := do
  let paths ← (linter.files tree directory).mapError .pattern
  let reports ← paths.mapM fun path => (linter.lintFile wording tree path).mapError .file
  return ⟨paths.length, .join reports⟩

end Linter

end FormulaLint
