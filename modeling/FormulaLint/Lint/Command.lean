import FormulaLint.Lint.Arguments
import FormulaLint.Lint.Log

/-!
# The lint command

The command takes a directory, reads its configuration, lints its files and reports what it found.
It succeeds when there are no errors and, in strict mode, no warnings either; a command line or a
configuration that cannot be used is told apart by the exit code.

Main results:

- Theorem {lit}`LintTotals.exitCode_eq_one_iff`: a run fails exactly when there is an error, or a
  warning in strict mode.
-/

namespace FormulaLint

/-- Why a run breaks off. -/
inductive CommandFault where
  | config (error : ConfigError)
  | lint (fault : LintFault)
deriving DecidableEq, Repr

/-- How a run ends. -/
inductive CommandEnd where
  | exit (code : Nat)
  | fault (fault : CommandFault)
deriving DecidableEq, Repr

/-- What a run prints on the output and the error channel, line by line, and how it ends. -/
structure CommandOutcome where
  output : List String := []
  errors : List String := []
  stop : CommandEnd
deriving DecidableEq, Repr

namespace CommandOutcome

/-- Lines as a text. -/
def textOf (lines : List String) : String :=
  String.join (lines.map (· ++ "\n"))

/-- What is printed on the output channel. -/
def outputText (outcome : CommandOutcome) : String :=
  textOf outcome.output

/-- What is printed on the error channel. -/
def errorText (outcome : CommandOutcome) : String :=
  textOf outcome.errors

end CommandOutcome

/-! ## Usage -/

/-- The lines that tell how the command is used. -/
def usageLines : List String :=
  ["usage: fxlint [-h] [--config CONFIG] [--strict] [--locale LOCALE] [--verbose]",
   "              [directory]"]

/-- The lines of the help. -/
def helpLines : List String :=
  usageLines ++
  ["",
   "Lint formulas in app YAML documents.",
   "",
   "positional arguments:",
   "  directory        Directory to lint (default: current directory)",
   "",
   "options:",
   "  -h, --help       show this help message and exit",
   "  --config CONFIG  Configuration file (default: <directory>/fxlint.yaml)",
   "  --strict         Fail on warnings, delegation warnings included",
   "  --locale LOCALE  Authoring locale tag, e.g. en-US or de-DE",
   "  --verbose        Log analysis details"]

/-! ## Configuration -/

namespace CommandLine

/-- The directory to lint. -/
def lintedDirectory (line : CommandLine) (tree : FileTree) : PathName :=
  line.directory.getD tree.currentPath

/-- The configuration file: the one that is given, or else the one in the directory, if there is
one. -/
def configPath (line : CommandLine) (tree : FileTree) : Option PathName :=
  let usual := (line.lintedDirectory tree).child configName
  line.config <|> (if tree.pathExists usual then some usual else none)

/-- The configuration of a run.  What the command line says wins. -/
def readConfig (line : CommandLine) (wording : Yaml.Wording) (tree : FileTree) :
    ConfigReader Config := do
  let config ← match line.configPath tree with
    | some path => ConfigReader.ofFile wording tree path
    | none => pure {}
  let config ← match line.locale with
    | some tag => do
        let profile ← ConfigReader.localeProfile (some tag) none
        pure { config with locale := some tag, profile }
    | none => pure config
  return if line.strict then { config with strict := true } else config

end CommandLine

/-! ## Reports -/

/-- The lines that tell what a run checks. -/
def headingLines (strict : Bool) : List String :=
  ["🔍 Linting formula YAML files...",
   "",
   "Running " ++ intText LintRule.all.length ++ " lint rule(s):"] ++
  LintRule.all.map (fun rule => "  • " ++ rule.name ++ ": " ++ rule.description) ++
  (if strict then ["  (strict mode: warnings fail the run)"] else []) ++
  [""]

namespace LintTotals

/-- The lines that list the warnings, if there are any. -/
def warningLines (totals : LintTotals) : List String :=
  if totals.warningCount = 0 then []
  else
    ["⚠️  Found " ++ intText totals.warningCount ++ " warning(s):", ""] ++
    totals.findings.warnings.map ("  " ++ ·) ++
    [""]

/-- The exit code of a run: one when there is an error, or a warning in strict mode. -/
def exitCode (totals : LintTotals) (strict : Bool) : Nat :=
  if totals.errorCount = 0 ∧ ¬ (strict = true ∧ 0 < totals.warningCount) then 0 else 1

/-- A run fails exactly when there is an error, or a warning in strict mode. -/
theorem exitCode_eq_one_iff (totals : LintTotals) (strict : Bool) :
    totals.exitCode strict = 1 ↔
      totals.findings.errors ≠ [] ∨ (strict = true ∧ totals.findings.warnings ≠ []) := by
  simp only [exitCode, errorCount, warningCount, List.length_eq_zero_iff, List.length_pos_iff]
  split
  next h => simp_all
  next h =>
    simp only [true_iff]
    by_cases he : totals.findings.errors = []
    · right
      simp_all
    · exact .inl he

/-- The lines that tell the result of a run. -/
def resultLines (totals : LintTotals) (strict : Bool) : List String :=
  let files := intText totals.checked ++ " file(s)"
  if totals.exitCode strict = 0 then
    if totals.warningCount = 0 then ["✅ All " ++ files ++ " passed lint checks!"]
    else ["✅ All " ++ files ++ " passed lint checks (with warnings above)"]
  else if totals.errorCount = 0 then
    ["❌ Strict mode: " ++ intText totals.warningCount ++ " warning(s) in " ++ files,
     "",
     "Please fix the warnings above and run the linter again."]
  else
    ["❌ Found " ++ intText totals.errorCount ++ " error(s) in " ++ files ++ ":", ""] ++
    totals.findings.errors.map ("  " ++ ·) ++
    ["", "Please fix the errors above and run the linter again."]

end LintTotals

/-! ## Runs -/

/-- The log lines of a run that is asked to tell what it did. -/
def logLines (line : CommandLine) (entries : List LogEntry) : List String :=
  if line.verbose then entries.map LogEntry.line else []

/-- Lint a directory with a configuration that has been read; {lit}`output` and {lit}`errors` have
been printed before. -/
def runLinter (wording : Yaml.Wording) (tree : FileTree) (line : CommandLine) (config : Config)
    (output errors : List String) : CommandOutcome :=
  let directory := line.lintedDirectory tree
  let linter : Linter := { config }
  let output := output ++ headingLines config.strict
  let errors := errors ++ logLines line (linter.log wording tree directory)
  match linter.lintAll wording tree directory with
  | .ok totals =>
      { output := output ++ totals.warningLines ++ totals.resultLines config.strict
        errors
        stop := .exit (totals.exitCode config.strict) }
  | .error fault => { output, errors, stop := .fault (.lint fault) }

/-- Run the command. -/
def runLine (wording : Yaml.Wording) (tree : FileTree) (line : CommandLine) : CommandOutcome :=
  let (result, notices) := (line.readConfig wording tree).run.run []
  let output := notices.filterMap ConfigNotice.warning?
  let errors := logLines line (notices.filterMap LogEntry.ofNotice?)
  match result with
  | .ok config => runLinter wording tree line config output errors
  | .error error =>
      match error.message? with
      | some message =>
          { output, errors := errors ++ ["❌ Configuration error: " ++ message], stop := .exit 2 }
      | none => { output, errors, stop := .fault (.config error) }

/-- Run the command with a list of arguments. -/
def runCommand (wording : Yaml.Wording) (tree : FileTree) (arguments : List String) :
    CommandOutcome :=
  match CommandLine.parse arguments with
  | .error error =>
      { errors := usageLines ++ ["fxlint: error: " ++ error.message], stop := .exit 2 }
  | .ok .help => { output := helpLines, stop := .exit 0 }
  | .ok (.run line) => runLine wording tree line

end FormulaLint
