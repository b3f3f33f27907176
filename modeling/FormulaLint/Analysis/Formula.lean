import FormulaLint.Analysis.Key
import FormulaLint.Delegation.Report
import FormulaLint.Parser.Formula

/-!
# Analysing formulas

A formula is read, its names are bound, its queries are judged, and the diagnostics of all phases
are put in source order.  Later phases see what could be read of a formula with errors.  Many
formulas are analysed independently of each other; the results stand in the order of their keys.
-/

namespace FormulaLint

/-- A formula to be analysed. -/
structure FormulaRequest where
  key : FormulaKey
  text : String
  placement : Placement := {}
  scope : Scope := {}
deriving DecidableEq, Repr

/-- What the formulas of an application share. -/
structure AnalysisSetting where
  profile : Profile
  symbols : SymbolTable
  capabilities : CapabilityTable
deriving DecidableEq, Repr

/-- The result of analysing a formula. -/
structure Analysis where
  key : FormulaKey
  parsed : Parsed
  resolution : Resolution
  delegation : DelegationReport
  diagnostics : List Diagnostic

namespace Analysis

/-- The errors among the diagnostics. -/
def errors (a : Analysis) : List Diagnostic :=
  a.diagnostics.filter (·.severity = .error)

/-- The warnings among the diagnostics. -/
def warnings (a : Analysis) : List Diagnostic :=
  a.diagnostics.filter (·.severity = .warning)

end Analysis

/-- Run every phase over one formula. -/
def analyze (s : AnalysisSetting) (request : FormulaRequest) : Except OverlongNumber Analysis := do
  let parsed ← parse s.profile request.text request.placement
  let resolution := resolve s.symbols request.scope parsed.expr
  let report := delegation s.capabilities resolution.bindings parsed.expr
  return {
    key := request.key
    parsed
    resolution
    delegation := report
    diagnostics :=
      sortDiagnostics (parsed.diagnostics ++ resolution.diagnostics ++ report.diagnostics) }

/-- Analyses in the order of their keys. -/
def sortAnalyses (analyses : List Analysis) : List Analysis :=
  analyses.mergeSort fun a b => a.key.before b.key

/-- Analyse every formula of a list; the results stand in the order of their keys. -/
def analyzeAll (s : AnalysisSetting) (requests : List FormulaRequest) :
    Except OverlongNumber (List Analysis) := do
  return sortAnalyses (← requests.mapM (analyze s))

/-- Whether a diagnostic of one formula may stand before one of another: by key, then by place. -/
def keyedBefore (a b : FormulaKey × Diagnostic) : Bool :=
  if a.1 = b.1 then a.2.before b.2 else a.1.before b.1

/-- All diagnostics of a batch, by key and then by place. -/
def mergeDiagnostics (analyses : List Analysis) : List (FormulaKey × Diagnostic) :=
  (analyses.flatMap fun a => a.diagnostics.map fun d => (a.key, d)).mergeSort keyedBefore

/-! ## Batches -/

/-- Why a batch cannot be analysed. -/
inductive BatchError where
  | workers
  | overlong (number : OverlongNumber)
deriving DecidableEq, Repr

namespace BatchError

/-- The wording of a batch error. -/
def message : BatchError → String
  | workers => "max_workers must be greater than 0"
  | overlong number => number.message

end BatchError

/-- Analyse a batch with a bound on the number of workers, which has to be positive. -/
def analyzeBatch (s : AnalysisSetting) (workers : Option Int) (requests : List FormulaRequest) :
    Except BatchError (List Analysis) :=
  if workers.any (· ≤ 0) then .error .workers
  else (analyzeAll s requests).mapError .overlong

end FormulaLint
