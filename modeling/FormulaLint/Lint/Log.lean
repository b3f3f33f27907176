import FormulaLint.Lint.Linter

/-!
# The log of a run

On demand a run tells what it did: which locale was taken, how much each document holds, and what
every phase found in every formula.  The log ends where the run ends.
-/

namespace FormulaLint

/-- Something that a run tells about itself. -/
inductive LogEntry where
  | locale (tag : String) (profile : Profile)
  | document (name : String) (formulas controls : Nat)
  | lexed (tokens comments errors : Nat)
  | parsed (clauses diagnostics : Nat)
  | resolved (references warnings : Nat)
  | classified (nodes warnings : Nat)
  | analysed (key : String) (diagnostics : Nat)
deriving DecidableEq, Repr

namespace LogEntry

/-- The line of an entry. -/
def line : LogEntry → String
  | locale tag profile =>
      "fxanalyzer.locale_profile: Locale " ++ tag ++ " resolved to decimal separator " ++
        Text.shown profile.separators.decimal
  | document name formulas controls =>
      "fxanalyzer.documents: " ++ name ++ ": " ++ intText formulas ++ " formula(s), " ++
        intText controls ++ " control(s)"
  | lexed tokens comments errors =>
      "fxanalyzer.lexer: Lexed " ++ intText tokens ++ " token(s), " ++ intText comments ++
        " comment(s), " ++ intText errors ++ " error(s)"
  | parsed clauses diagnostics =>
      "fxanalyzer.formula_parser: Parsed " ++ intText clauses ++ " clause(s) with " ++
        intText diagnostics ++ " diagnostic(s)"
  | resolved references warnings =>
      "fxanalyzer.resolver: Resolved " ++ intText references ++ " reference(s), " ++
        intText warnings ++ " warning(s)"
  | classified nodes warnings =>
      "fxanalyzer.delegation: Classified " ++ intText nodes ++ " node(s), " ++
        intText warnings ++ " delegation warning(s)"
  | analysed key diagnostics =>
      "fxanalyzer.pipeline: Analysed " ++ key ++ ": " ++ intText diagnostics ++ " diagnostic(s)"

/-- The entry for the tokens of a formula, the end of the formula among them. -/
def ofLexed (lexed : Lexed) : LogEntry :=
  .lexed (lexed.tokens.length + 1) lexed.comments.length lexed.diagnostics.length

/-- The entries for a locale that decided the profile of a configuration. -/
def ofNotice? : ConfigNotice → Option LogEntry
  | .locale tag profile => some (locale tag profile)
  | .unexpectedFields _ _ | .unexpectedKeys _ _ _ _ => none

end LogEntry

/-- What is told about an analysed formula, phase by phase. -/
def Analysis.log (a : Analysis) : List LogEntry :=
  [.ofLexed a.parsed.lexed,
   .parsed a.parsed.clauses.length a.parsed.diagnostics.length,
   .resolved a.resolution.bindings.size a.resolution.diagnostics.length,
   .classified a.delegation.verdicts.size a.delegation.diagnostics.length,
   .analysed a.key.name a.diagnostics.length]

/-- What is told about the formulas of a document, up to the first one that cannot be analysed: of
that one only its tokens are told. -/
def requestsLog (s : AnalysisSetting) : List FormulaRequest → List LogEntry
  | [] => []
  | request :: rest =>
      match analyze s request with
      | .ok a => a.log ++ requestsLog s rest
      | .error _ =>
          let (body, placement) := stripMarker request.text.toList request.placement
          [.ofLexed (lex s.profile body placement)]

namespace Linter

/-- What is told about a file. -/
def fileLog (linter : Linter) (wording : Yaml.Wording) (tree : FileTree) (path : PathName) :
    List LogEntry :=
  match loadDocument wording tree path with
  | .error _ => []
  | .ok document =>
      let formulas :=
        if linter.workers.any (· ≤ 0) then []
        else requestsLog (linter.config.setting document.symbols) document.formulas
      .document document.name document.formulas.length document.controls.length :: formulas

/-- What is told about files, up to the first one that cannot be linted. -/
def filesLog (linter : Linter) (wording : Yaml.Wording) (tree : FileTree) :
    List PathName → List LogEntry
  | [] => []
  | path :: rest =>
      linter.fileLog wording tree path ++
        match linter.lintFile wording tree path with
        | .ok _ => linter.filesLog wording tree rest
        | .error _ => []

/-- What is told about the files of a directory. -/
def log (linter : Linter) (wording : Yaml.Wording) (tree : FileTree) (directory : PathName) :
    List LogEntry :=
  match linter.files tree directory with
  | .ok paths => linter.filesLog wording tree paths
  | .error _ => []

end Linter

end FormulaLint
