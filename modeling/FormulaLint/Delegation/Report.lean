import FormulaLint.Delegation.Query
import FormulaLint.Expr.Shown

/-!
# Delegation of queries

The queries of a formula are judged from the inside out, so that a query knows the verdict on the
query it reads from.  A query counts when the source of its first argument declares capabilities.
-/

namespace FormulaLint

/-- Functions whose arguments behind the first are conditions. -/
def predicateFunctions : List String :=
  ["Filter", "CountIf", "RemoveIf"]

/-- Functions that query a source. -/
def queryFunctions : List String :=
  predicateFunctions ++ ["LookUp", "Sort", "SortByColumns", "ShowColumns"]

/-- The verdicts on the parts of a formula, and the warnings in source order. -/
structure DelegationReport where
  verdicts : Verdicts
  diagnostics : List Diagnostic
deriving DecidableEq, Repr

/-- The verdicts and warnings so far. -/
structure Judging where
  verdicts : Verdicts
  warnings : List Diagnostic
deriving DecidableEq, Repr

/-- Every other item of a list, starting with the first. -/
def everyOther {α : Type} : List α → List α
  | [] => []
  | [a] => [a]
  | a :: _ :: rest => a :: everyOther rest

namespace CallSite

/-- The arguments behind the first, each with its path. -/
def laterArguments (site : CallSite) : List (Path × Expr) :=
  (site.arguments.zipIdx.drop 1).map fun (e, i) => (site.path ++ [i], e)

/-- The rulings on the arguments that a query gives to its source. -/
def rulings (site : CallSite) (q : Query) : List Query.Ruling :=
  let later := site.laterArguments
  if predicateFunctions.contains site.function then
    later.map fun (path, e) => q.clause path e
  else if site.function = "LookUp" then
    (later.take 1).map fun (path, e) => q.clause path e
  else if site.function = "Sort" then
    (later.take 1).map fun (path, e) => q.sortExpression path e
  else if site.function = "SortByColumns" then
    (everyOther later).map fun (path, e) => q.column .sortable path e
  else if site.function = "ShowColumns" then
    later.map fun (path, e) => q.column .selectable path e
  else []

/-- The query that a call makes, if its source declares capabilities. -/
def query? (site : CallSite) (capabilities : CapabilityTable) (bindings : Bindings) :
    Option Query := do
  let first ← site.arguments.head?
  let source ← tableSource bindings (site.path ++ [0]) first
  let fields ← capabilities.forSource source
  return ⟨source, fields, bindings⟩

/-- The verdict on the table that a query reads, as far as it bears on the query. -/
def innerVerdict (site : CallSite) (q : Query) (verdicts : Verdicts) : Verdict :=
  match verdicts.get? (site.path ++ [0]) with
  | some (.refused _) => .refused (.innerQuery q.source)
  | _ => .delegable

/-- Judge the query that a call makes. -/
def judge (capabilities : CapabilityTable) (bindings : Bindings) (judging : Judging)
    (site : CallSite) : Judging :=
  match site.query? capabilities bindings with
  | none => judging
  | some q =>
      let rulings := site.rulings q
      let verdict :=
        (site.innerVerdict q judging.verdicts).andThen (.all (rulings.map (·.verdict)))
      let judgements := rulings.flatMap (·.judgements) ++ [⟨site.path, verdict, true⟩]
      ⟨judgements.foldl Judgement.apply judging.verdicts,
        judging.warnings ++ rulings.flatMap (·.warnings)⟩

end CallSite

/-- Judge every query of the expression at the given path of a formula. -/
def delegationAt (capabilities : CapabilityTable) (bindings : Bindings) (here : Path) (e : Expr) :
    DelegationReport :=
  let sites := (e.callsAt here (some queryFunctions)).filter (·.qualifiers.isEmpty)
  let judged := sites.foldl (CallSite.judge capabilities bindings) ⟨.empty, []⟩
  ⟨judged.verdicts, sortDiagnostics judged.warnings⟩

/-- Judge every query of a formula. -/
def delegation (capabilities : CapabilityTable) (bindings : Bindings) (e : Expr) :
    DelegationReport :=
  delegationAt capabilities bindings [] e

/-- Whether an expression is a call of a function that queries a source. -/
def isQueryCall : Expr → Bool
  | .call function _ _ _ => queryFunctions.contains function
  | _ => false

namespace DelegationReport

/-- The judged parts that call a query function, in the order in which they were first judged;
{lit}`e` is the expression at the given path. -/
def roots (report : DelegationReport) (here : Path) (e : Expr) : List Path :=
  let walked := e.walkFrom here
  report.verdicts.keys.filter fun path =>
    walked.any fun (at', part) => at' = path && isQueryCall part

end DelegationReport

/-- A part of a formula that makes no query, as a message shows it. -/
structure NotAQuery where
  shown : String
deriving DecidableEq, Repr

namespace NotAQuery

/-- The wording for a part that makes no query. -/
def message (e : NotAQuery) : String :=
  "Not a delegable query: " ++ e.shown

end NotAQuery

/-- Judge the query that the expression at a path makes, and the queries inside it. -/
def delegationOfCall (capabilities : CapabilityTable) (bindings : Bindings) (here : Path) (e : Expr) :
    Except NotAQuery DelegationReport :=
  if isQueryCall e then .ok (delegationAt capabilities bindings here e)
  else
    match e with
    | .call function _ _ _ => .error ⟨Text.shown function⟩
    | other => .error ⟨other.shown⟩

end FormulaLint
