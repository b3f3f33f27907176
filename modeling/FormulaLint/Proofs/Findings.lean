import FormulaLint.Lint.Command
import FormulaLint.Proofs.Configuring
import FormulaLint.Proofs.Linting
import Mathlib.Data.List.Flatten
import Mathlib.Data.List.Perm.Basic

/-!
# What a run reports

The rules divide the diagnostics of a formula among themselves: every diagnostic is the concern of
one rule and of no other.  So what is reported about a directory is, in some order, each error and
each warning of each formula of each file, with one entry for a file that is not valid.  The exit
code tells whether that is a failure.

Main results:

- Theorem {lit}`LintRule.countP_concerns`: one rule is about a diagnostic, whatever it says.
- Theorem {lit}`LintRule.checkAll_errors_perm`: all rules together report each error of a formula.
- Theorem {lit}`Linter.lintAll_perm`: what is reported about a directory.
- Theorem {lit}`lint_reports_each_once`: directories, rules and exit codes.
-/

namespace FormulaLint

/-! ## The rules about one formula -/

namespace LintRule

/-- One rule is about a diagnostic, and no other one. -/
theorem countP_concerns (d : Diagnostic) : all.countP (·.concerns d) = 1 := by
  cases hcategory : d.category <;>
    simp [all, concerns, validSyntax, resolvableReferences, delegableQueries, hcategory]

/-- A diagnostic is reported as often as there are rules about it. -/
theorem count_concerned (rules : List LintRule) (ds : List Diagnostic) (d : Diagnostic) :
    (rules.flatMap fun rule => ds.filter rule.concerns).count d =
      rules.countP (·.concerns d) * ds.count d := by
  induction rules with
  | nil => simp
  | cons rule rules ih =>
      rw [List.flatMap_cons, List.count_append, ih, List.countP_cons, Nat.add_mul, Nat.add_comm]
      cases hconcerns : rule.concerns d with
      | true => rw [List.count_filter hconcerns]; simp
      | false =>
          have hnot : d ∉ ds.filter rule.concerns := by simp [hconcerns]
          rw [List.count_eq_zero_of_not_mem hnot]
          simp

/-- The rules divide diagnostics among themselves. -/
theorem concerned_perm (ds : List Diagnostic) :
    (all.flatMap fun rule => ds.filter rule.concerns).Perm ds := by
  rw [List.perm_iff_count]
  intro d
  rw [count_concerned, countP_concerns, Nat.one_mul]

/-- Some of the diagnostics of each rule are, for all rules together, those of all diagnostics. -/
theorem concerned_map_perm (ds : List Diagnostic) (select : Diagnostic → Bool)
    (line : Diagnostic → String) :
    (all.flatMap fun rule => ((ds.filter rule.concerns).filter select).map line).Perm
      ((ds.filter select).map line) := by
  have hdivided := ((concerned_perm ds).filter select).map line
  rwa [List.filter_flatMap, List.map_flatMap] at hdivided

variable (path : PathName) (a : Analysis)

/-- All rules together report each error of a formula. -/
theorem checkAll_errors_perm :
    (checkAll path a).errors.Perm (a.errors.map (diagnosticLine path a)) := by
  rw [checkAll, Findings.join, List.flatMap_map]
  exact concerned_map_perm a.diagnostics _ _

/-- A diagnostic that is no error is a warning. -/
theorem warnings_eq : a.warnings = a.diagnostics.filter (!·.isError) := by
  refine List.filter_congr fun d _ => ?_
  rw [Diagnostic.isError]
  cases d.severity <;> rfl

/-- All rules together report each warning of a formula. -/
theorem checkAll_warnings_perm :
    (checkAll path a).warnings.Perm (a.warnings.map (diagnosticLine path a)) := by
  rw [checkAll, Findings.join, List.flatMap_map, warnings_eq]
  exact concerned_map_perm a.diagnostics _ _

/-- Each diagnostic of a formula has one line in what the rules report. -/
theorem check_perm : (all.flatMap fun rule =>
    (rule.check path a).errors ++ (rule.check path a).warnings).Perm
      (a.diagnostics.map (diagnosticLine path a)) := by
  have herrors := concerned_map_perm a.diagnostics (·.isError) (diagnosticLine path a)
  have hwarnings := concerned_map_perm a.diagnostics (!·.isError) (diagnosticLine path a)
  refine (List.flatMap_append_perm ..).symm.trans ((herrors.append hwarnings).trans ?_)
  rw [← List.map_append]
  exact (List.filter_append_perm Diagnostic.isError a.diagnostics).map _

end LintRule

/-! ## Files -/

/-- What is wrong with a file that is not valid: it cannot be opened, or it is not YAML. -/
def fileFault? (wording : Yaml.Wording) (tree : FileTree) (path : PathName) : Option String :=
  match loadDocument wording tree path with
  | .ok _ => none
  | .error error => error.message?

/-- The entry of a file that is not valid. -/
def faultLine? (wording : Yaml.Wording) (tree : FileTree) (path : PathName) : Option String :=
  (fileFault? wording tree path).map fun message => path.text ++ ": " ++ message

namespace Linter

variable {linter : Linter} {wording : Yaml.Wording} {tree : FileTree} {path directory : PathName}
  {report : Findings}

/-- The analyses of a file; a file that is not valid has none. -/
def analyses (linter : Linter) (wording : Yaml.Wording) (tree : FileTree) (path : PathName) :
    List Analysis :=
  (linter.analyzeFile wording tree path).toOption.getD []

/-- The lines of some diagnostics of all formulas of a file. -/
def fileLines (linter : Linter) (wording : Yaml.Wording) (tree : FileTree)
    (select : Analysis → List Diagnostic) (path : PathName) : List String :=
  (linter.analyses wording tree path).flatMap fun a => (select a).map (diagnosticLine path a)

/-- A file that can be analysed is valid. -/
theorem fileFault?_of_analyzeFile {analyses : List Analysis}
    (h : linter.analyzeFile wording tree path = .ok analyses) :
    fileFault? wording tree path = none := by
  unfold fileFault?
  cases hload : loadDocument wording tree path with
  | ok document => rfl
  | error error => simp [analyzeFile_of_error hload] at h

/-- A file with a message of its own is one that cannot be loaded. -/
theorem fileFault?_of_message {error : LintError} {message : String}
    (h : linter.analyzeFile wording tree path = .error error)
    (hmessage : error.documentMessage? = some message) :
    fileFault? wording tree path = some message := by
  unfold fileFault?
  cases hload : loadDocument wording tree path with
  | error fault =>
      rw [analyzeFile_of_error hload] at h
      obtain rfl := Except.error.inj h
      exact hmessage
  | ok document =>
      -- a valid file fails for its formulas, and no message tells that
      unfold analyzeFile at h
      rw [hload] at h
      simp only [Except.mapError, bind, Except.bind] at h
      split at h
      · obtain rfl := Except.error.inj h
        simp [LintError.documentMessage?] at hmessage
      · simp at h

/-- What is reported about a file that is reported on. -/
theorem lintFile_perm (h : linter.lintFile wording tree path = .ok report) :
    report.errors.Perm
        (linter.fileLines wording tree Analysis.errors path ++
          (faultLine? wording tree path).toList) ∧
      report.warnings.Perm (linter.fileLines wording tree Analysis.warnings path) ∧
      ((∃ analyses, linter.analyzeFile wording tree path = .ok analyses) ↔
        fileFault? wording tree path = none) := by
  unfold lintFile at h
  split at h
  · rename_i analyses hanalysed
    obtain rfl := Except.ok.inj h
    have hvalid := fileFault?_of_analyzeFile hanalysed
    have hown : linter.analyses wording tree path = analyses := by
      rw [Linter.analyses, hanalysed]
      rfl
    rw [fileLines, fileLines, hown, faultLine?, hvalid, Option.map_none, Option.toList_none,
      List.append_nil, Findings.join, List.flatMap_map, List.flatMap_map]
    exact ⟨List.Perm.flatMap_left _ fun a _ => LintRule.checkAll_errors_perm path a,
      List.Perm.flatMap_left _ fun a _ => LintRule.checkAll_warnings_perm path a,
      fun _ => rfl, fun _ => ⟨analyses, hanalysed⟩⟩
  · rename_i error hfailed
    split at h
    · rename_i message hmessage
      obtain rfl := Except.ok.inj h
      have hfault := fileFault?_of_message hfailed hmessage
      have hown : linter.analyses wording tree path = [] := by
        rw [Linter.analyses, hfailed]
        rfl
      rw [fileLines, fileLines, hown, faultLine?, hfault]
      refine ⟨.refl _, .refl _, fun hanalysed => ?_, by simp⟩
      rcases hanalysed with ⟨analyses, hanalysed⟩
      exact absurd (hfailed.symm.trans hanalysed) (by simp)
    · simp at h

/-! ## Directories -/

/-- What is reported about some files, one after the other. -/
theorem lintFiles_perm {paths : List PathName} {reports : List Findings}
    (h : List.Forall₂ (fun path report => linter.lintFile wording tree path = .ok report) paths
      reports) :
    (reports.flatMap Findings.errors).Perm (paths.flatMap fun path =>
        linter.fileLines wording tree Analysis.errors path ++
          (faultLine? wording tree path).toList) ∧
      (reports.flatMap Findings.warnings).Perm
        (paths.flatMap (linter.fileLines wording tree Analysis.warnings)) ∧
      ∀ path ∈ paths,
        (∃ analyses, linter.analyzeFile wording tree path = .ok analyses) ↔
          fileFault? wording tree path = none := by
  induction h with
  | nil => simp
  | cons hfile _ ih =>
      rcases lintFile_perm hfile with ⟨herrors, hwarnings, hvalid⟩
      simp only [List.flatMap_cons]
      exact ⟨herrors.append ih.1, hwarnings.append ih.2.1,
        List.forall_mem_cons.mpr ⟨hvalid, ih.2.2⟩⟩

/-- What is reported about a directory: each error and each warning of each formula of each file,
with one entry for a file that is not valid. -/
theorem lintAll_perm {totals : LintTotals}
    (h : linter.lintAll wording tree directory = .ok totals) :
    ∃ paths, linter.files tree directory = .ok paths ∧
      totals.findings.errors.Perm
        (paths.flatMap (linter.fileLines wording tree Analysis.errors) ++
          paths.filterMap (faultLine? wording tree)) ∧
      totals.findings.warnings.Perm
        (paths.flatMap (linter.fileLines wording tree Analysis.warnings)) ∧
      ∀ path ∈ paths,
        (∃ analyses, linter.analyzeFile wording tree path = .ok analyses) ↔
          fileFault? wording tree path = none := by
  cases hfiles : linter.files tree directory with
  | error error =>
      unfold lintAll at h
      simp [hfiles, Except.mapError, bind, Except.bind] at h
  | ok paths =>
      rcases (lintAll_eq_ok_iff hfiles).mp h with ⟨reports, hreports, rfl⟩
      rcases lintFiles_perm hreports with ⟨herrors, hwarnings, hvalid⟩
      refine ⟨paths, rfl, herrors.trans ?_, hwarnings, hvalid⟩
      rw [List.filterMap_eq_flatMap_toList]
      exact (List.flatMap_append_perm paths _ _).symm

end Linter

/-! ## Runs -/

/-- A reading in two steps that gives a value gives one in each step. -/
theorem ConfigReader.exists_of_bind {α β : Type} {m : ConfigReader α} {f : α → ConfigReader β}
    {notices later : List ConfigNotice} {b : β}
    (h : (m >>= f).run.run notices = (.ok b, later)) : ∃ a between,
      m.run.run notices = (.ok a, between) ∧ (f a).run.run between = (.ok b, later) := by
  rw [run_bind] at h
  rcases hfirst : m.run.run notices with ⟨_ | a, between⟩ <;> rw [hfirst] at h
  · cases h
  · exact ⟨a, between, rfl, h⟩

/-- A configuration is read in three steps: from a file, if there is one, with the locale of the
command line, if it names one, and with the strict mode of the command line. -/
theorem CommandLine.readConfig_eq (line : CommandLine) (wording : Yaml.Wording)
    (tree : FileTree) :
    line.readConfig wording tree = (match line.configPath tree with
      | some path => ConfigReader.ofFile wording tree path
      | none => pure {}) >>= fun base => (match line.locale with
        | some tag => ConfigReader.localeProfile (some tag) none >>= fun profile =>
            pure { base with locale := some tag, profile }
        | none => pure base) >>= fun localized =>
          pure (if line.strict then { localized with strict := true } else localized) := by
  unfold readConfig
  cases line.configPath tree <;> cases line.locale <;> simp only [bind_assoc]

/-- A run is strict when the command line or the configuration file says so. -/
theorem strict_of_readConfig {wording : Yaml.Wording} {tree : FileTree} {line : CommandLine}
    {config : Config} {notices : List ConfigNotice}
    (h : (line.readConfig wording tree).run.run [] = (.ok config, notices)) :
    config.strict = true ↔ line.strict = true ∨ ∃ path base, line.configPath tree = some path ∧
      (loadConfig wording tree path).1 = .ok base ∧ base.strict = true := by
  rw [CommandLine.readConfig_eq] at h
  rcases ConfigReader.exists_of_bind h with ⟨base, between, hbase, h⟩
  rcases ConfigReader.exists_of_bind h with ⟨localized, later, hlocalized, h⟩
  -- a locale on the command line leaves the rest of the configuration as it is
  have hsame : localized.strict = base.strict := by
    cases hlocale : line.locale with
    | none =>
        rw [hlocale] at hlocalized
        obtain rfl := Except.ok.inj (congrArg Prod.fst hlocalized)
        rfl
    | some tag =>
        rw [hlocale] at hlocalized
        rcases ConfigReader.exists_of_bind hlocalized with ⟨profile, _, _, hprofile⟩
        obtain rfl := Except.ok.inj (congrArg Prod.fst hprofile)
        rfl
  have hfile : base.strict = true ↔ ∃ path base, line.configPath tree = some path ∧
      (loadConfig wording tree path).1 = .ok base ∧ base.strict = true := by
    cases hpath : line.configPath tree with
    | none =>
        rw [hpath] at hbase
        obtain rfl := Except.ok.inj (congrArg Prod.fst hbase)
        simp
    | some path =>
        rw [hpath] at hbase
        have hload : (loadConfig wording tree path).1 = .ok base := congrArg Prod.fst hbase
        simp [hload]
  have hconfig := Except.ok.inj (congrArg Prod.fst h)
  rw [← hconfig, ← hfile, ← hsame]
  cases hline : line.strict <;> simp

/-- A run that has read its configuration ends as the linting of its directory does: with an exit
code for what was found, or with the fault that keeps the directory from being linted. -/
theorem runCommand_stop {wording : Yaml.Wording} {tree : FileTree} {arguments : List String}
    {line : CommandLine} {config : Config} {notices : List ConfigNotice}
    (harguments : CommandLine.parse arguments = .ok (.run line))
    (hconfig : (line.readConfig wording tree).run.run [] = (.ok config, notices)) :
    (runCommand wording tree arguments).stop =
      match ({ config } : Linter).lintAll wording tree (line.lintedDirectory tree) with
      | .ok totals => .exit (totals.exitCode config.strict)
      | .error fault => .fault (.lint fault) := by
  unfold runCommand
  rw [harguments]
  unfold runLine
  dsimp only
  rw [hconfig]
  unfold runLinter
  dsimp only
  cases ({ config } : Linter).lintAll wording tree (line.lintedDirectory tree) <;> rfl

/-- A run ends with one when there is an error, or a warning in strict mode, and with zero
otherwise. -/
theorem LintTotals.exitCode_eq (totals : LintTotals) (strict : Bool) :
    totals.exitCode strict =
      if totals.findings.errors ≠ [] ∨ (strict = true ∧ totals.findings.warnings ≠ []) then 1
      else 0 := by
  split
  · exact (totals.exitCode_eq_one_iff strict).mpr ‹_›
  · have hone := mt (totals.exitCode_eq_one_iff strict).mp ‹_›
    unfold exitCode at hone ⊢
    split
    · rfl
    · simp_all

/-- Linting loses and invents nothing.  Whenever a directory can be linted, the errors are, in some
order, the lines of all errors of all formulas of all its files with one entry for each file that is
not valid, and the warnings are the lines of all warnings of all formulas; a file has formulas that
are analysed exactly when it is valid.  Each diagnostic of a formula is the concern of one rule, and
the rules report one line for each.  A run with a configuration that does not break off ends with
one when there is an error, or a warning in strict mode, and with zero otherwise; the command line
or the configuration file asks for strict mode. -/
theorem lint_reports_each_once (wording : Yaml.Wording) (tree : FileTree) :
    (∀ (linter : Linter) (directory : PathName) (totals : LintTotals),
      linter.lintAll wording tree directory = .ok totals →
      ∃ paths, linter.files tree directory = .ok paths ∧
        totals.findings.errors.Perm
          (paths.flatMap (linter.fileLines wording tree Analysis.errors) ++
            paths.filterMap (faultLine? wording tree)) ∧
        totals.findings.warnings.Perm
          (paths.flatMap (linter.fileLines wording tree Analysis.warnings)) ∧
        ∀ path ∈ paths,
          (∃ analyses, linter.analyzeFile wording tree path = .ok analyses) ↔
            fileFault? wording tree path = none) ∧
    (∀ d : Diagnostic, LintRule.all.countP (·.concerns d) = 1) ∧
    (∀ (path : PathName) (a : Analysis), (LintRule.all.flatMap fun rule =>
      (rule.check path a).errors ++ (rule.check path a).warnings).Perm
        (a.diagnostics.map (diagnosticLine path a))) ∧
    ∀ (arguments : List String) (line : CommandLine) (config : Config)
      (notices : List ConfigNotice),
      CommandLine.parse arguments = .ok (.run line) →
      (line.readConfig wording tree).run.run [] = (.ok config, notices) →
      (∀ fault, (runCommand wording tree arguments).stop ≠ .fault fault) →
      (config.strict = true ↔ line.strict = true ∨ ∃ path base,
        line.configPath tree = some path ∧ (loadConfig wording tree path).1 = .ok base ∧
          base.strict = true) ∧
      ∃ totals,
        ({ config } : Linter).lintAll wording tree (line.lintedDirectory tree) = .ok totals ∧
        (runCommand wording tree arguments).stop = .exit
          (if totals.findings.errors ≠ [] ∨ (config.strict = true ∧ totals.findings.warnings ≠ [])
            then 1 else 0) := by
  refine ⟨fun linter directory totals hlint => Linter.lintAll_perm hlint,
    LintRule.countP_concerns, LintRule.check_perm, ?_⟩
  intro arguments line config notices harguments hconfig hstop
  refine ⟨strict_of_readConfig hconfig, ?_⟩
  have hend := runCommand_stop harguments hconfig
  cases hlint : ({ config } : Linter).lintAll wording tree (line.lintedDirectory tree) with
  | error fault =>
      rw [hlint] at hend
      exact absurd hend (hstop _)
  | ok totals =>
      rw [hlint] at hend
      refine ⟨totals, rfl, hend.trans ?_⟩
      dsimp only
      rw [LintTotals.exitCode_eq]

/-- The current directory with one formula that names what does not exist, and with a configuration
that asks for strict mode. -/
def strictTree : FileTree :=
  (treeWithConfig "strict: true").insert ["work", "a.yaml"] (.file "X: =y".toUTF8.data.toList)

/-- The linter with this configuration. -/
def strictLinter : Linter where
  config := { strict := true }

/-- A run there fails, for what is wrong with the formulas and the files of the directory: the
configuration alone makes it strict. -/
theorem strictTree_reported : (runCommand .plain strictTree []).stop = .exit 1 ∧
    ∃ totals paths,
      strictLinter.lintAll .plain strictTree strictTree.currentPath = .ok totals ∧
        strictLinter.files strictTree strictTree.currentPath = .ok paths ∧
        totals.findings.warnings.Perm
          (paths.flatMap (strictLinter.fileLines .plain strictTree Analysis.warnings)) ∧
        (totals.findings.errors ≠ [] ∨ totals.findings.warnings ≠ []) := by
  have harguments : CommandLine.parse [] = .ok (.run {}) := by decide +kernel
  have hconfig : @Eq ConfigOutcome ((({} : CommandLine).readConfig .plain strictTree).run.run [])
      (.ok { strict := true }, []) := by decide +kernel
  have hstop : (runCommand .plain strictTree []).stop = .exit 1 := by decide +kernel
  rcases lint_reports_each_once .plain strictTree with ⟨hall, -, -, hrun⟩
  rcases hrun [] {} { strict := true } [] harguments hconfig (by simp [hstop]) with
    ⟨-, totals, hlint, hend⟩
  rcases hall _ _ totals hlint with ⟨paths, hpaths, -, hwarnings, -⟩
  refine ⟨hstop, totals, paths, hlint, hpaths, hwarnings, ?_⟩
  by_contra hnothing
  have hclean : ¬ (totals.findings.errors ≠ [] ∨
      (({ strict := true } : Config).strict = true ∧ totals.findings.warnings ≠ [])) := by
    simpa using hnothing
  rw [if_neg hclean, hstop] at hend
  exact absurd hend (by decide)

end FormulaLint
