import FormulaLint.Expr.Walk
import FormulaLint.OrderedMap

/-!
# Verdicts

Every part of a query is judged: either it can run at the data source, or it cannot for a stated
reason.
-/

namespace FormulaLint

/-- What a column argument has to be good for. -/
inductive ColumnUse where
  | sortable
  | selectable
deriving DecidableEq, Repr

namespace ColumnUse

/-- The word for a use of columns. -/
def label : ColumnUse → String
  | sortable => "sortable"
  | selectable => "selectable"

end ColumnUse

/-- Why a part of a query cannot run at the data source. -/
inductive Refusal where
  | innerQuery (source : String)
  | sortExpression
  | sortField (field : String)
  | columnNotText
  | column (name : String) (use : ColumnUse)
  | function (qualifiedName : String)
  | operator (spelling : String)
  | chain
  | unknownExpression
  | unresolved (name : String)
  | undescribedField (field : String)
  | unfilterableField (field : String)
  | unsupported (field spelling : String)
deriving DecidableEq, Repr

namespace Refusal

/-- The wording of a reason. -/
def message : Refusal → String
  | innerQuery source => "inner query on '" ++ source ++ "' is not delegable"
  | sortExpression => "sort expression is not a field of the source"
  | sortField field => "field '" ++ field ++ "' is not sortable"
  | columnNotText => "column name is not a text literal"
  | column name use => "column '" ++ name ++ "' is not " ++ use.label
  | function name => "'" ++ name ++ "' cannot be delegated"
  | operator spelling => "operator '" ++ spelling ++ "' cannot be delegated"
  | chain => "chained expressions cannot be delegated"
  | unknownExpression => "unsupported expression Node"
  | unresolved name => "'" ++ name ++ "' could not be resolved"
  | undescribedField field => "field '" ++ field ++ "' has no capability metadata"
  | unfilterableField field => "field '" ++ field ++ "' is not filterable"
  | unsupported field spelling => "field '" ++ field ++ "' does not support '" ++ spelling ++ "'"

end Refusal

/-- Whether a part of a query can run at the data source. -/
inductive Verdict where
  | delegable
  | refused (reason : Refusal)
deriving DecidableEq, Repr

namespace Verdict

/-- Whether the verdict is favourable. -/
def isDelegable : Verdict → Bool
  | delegable => true
  | refused _ => false

/-- The word for a verdict. -/
def label : Verdict → String
  | delegable => "delegable"
  | refused _ => "non-delegable"

/-- The reason of a refusal; empty for a favourable verdict. -/
def reason : Verdict → String
  | delegable => ""
  | refused reason => reason.message

/-- This verdict if it is a refusal, and otherwise the next one. -/
def andThen (v next : Verdict) : Verdict :=
  match v with
  | delegable => next
  | refused reason => refused reason

/-- The first refusal of a list, if there is one. -/
def all : List Verdict → Verdict
  | [] => delegable
  | v :: rest => v.andThen (all rest)

@[simp] theorem isDelegable_delegable : delegable.isDelegable = true := rfl

@[simp] theorem isDelegable_refused (reason : Refusal) : (refused reason).isDelegable = false := rfl

/-- A verdict and the next one are favourable together exactly when both are. -/
@[simp] theorem isDelegable_andThen (v next : Verdict) :
    (v.andThen next).isDelegable = (v.isDelegable && next.isDelegable) := by
  cases v <;> rfl

/-- Verdicts are favourable together exactly when each of them is. -/
theorem isDelegable_all (vs : List Verdict) : (all vs).isDelegable = vs.all isDelegable := by
  induction vs with
  | nil => rfl
  | cons v rest ih => simp [all, ih]

end Verdict

/-- Verdicts by the path of the part, in the order in which parts were first judged. -/
abbrev Verdicts := OrderedMap Path Verdict

/-- A verdict that is passed on a part.  A part that has a verdict already keeps it unless the new
one is final. -/
structure Judgement where
  path : Path
  verdict : Verdict
  final : Bool
deriving DecidableEq, Repr

/-- Take up a judgement. -/
def Judgement.apply (verdicts : Verdicts) (j : Judgement) : Verdicts :=
  if j.final then verdicts.insert j.path j.verdict else verdicts.insertIfNew j.path j.verdict

end FormulaLint
