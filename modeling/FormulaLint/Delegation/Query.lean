import FormulaLint.Binding.Resolve
import FormulaLint.Delegation.Capability
import FormulaLint.Delegation.Verdict

/-!
# Judging the clauses of a query

A query reads the rows of one source.  Literals and names that do not depend on the row can run at
the source; a field of the row has to be filterable, and an operator or function applied directly
to it has to be supported.  Conditions joined by and, or and not are split into their branches:
every branch that fails is warned about by itself.
-/

namespace FormulaLint

/-- Functions that join or negate conditions. -/
def combinatorFunctions : List String :=
  ["And", "Or", "Not"]

/-- Functions that a data source may run. -/
def delegableFunctions : List String :=
  combinatorFunctions ++
    ["StartsWith", "EndsWith", "IsBlank", "IsEmpty", "Blank", "Today", "Now", "Lower", "Upper",
     "Trim", "Len", "Value", "Text", "DateAdd"]

/-- A query: its source, what the source can do with its fields, and the bindings of the
formula. -/
structure Query where
  source : String
  fields : FieldCapabilities
  bindings : Bindings
deriving DecidableEq, Repr

namespace Query

/-- The field of the current row that an expression reads. -/
def rowField (q : Query) (here : Path) : Expr → Option String
  | .name _ _ _ _ =>
      match q.bindings.get? here with
      | none => none
      | some binding =>
          if binding.kind = .dataSourceField ∧ binding.source = some q.source then some binding.name
          else if binding.kind = .contextKeyword then
            match binding.frame with
            | some frame => if frame.source = some q.source then binding.member else none
            | none => none
          else none
  | _ => none

/-- A field of the row has to support the operator or function applied to it. -/
def checkField (q : Query) (here : Path) (operand : Expr) (tag spelling : String) : Verdict :=
  match q.rowField here operand with
  | none => .delegable
  | some field =>
      match q.fields.get? field with
      | some capability =>
          if capability.supports tag then .delegable else .refused (.unsupported field spelling)
      | none => .refused (.unsupported field spelling)

/-- The first argument, from position {lit}`index` on, that does not support a function. -/
def checkArguments (q : Query) (here : Path) (function : String) : Nat → List Expr → Verdict
  | _, [] => .delegable
  | index, e :: rest =>
      (q.checkField (here ++ [index]) e (Text.lower function) function).andThen
        (checkArguments q here function (index + 1) rest)

/-- Judge a name: it must stand for something, and a field of the row must be filterable. -/
def judgeName (q : Query) (here : Path) (e : Expr) (name : String) : Verdict :=
  match q.bindings.get? here with
  | none => .refused (.unresolved name)
  | some binding =>
      if binding.kind = .unresolved then .refused (.unresolved name)
      else
        match q.rowField here e with
        | none => .delegable
        | some field =>
            match q.fields.get? field with
            | none => .refused (.undescribedField field)
            | some capability =>
                if capability.filterable then .delegable else .refused (.unfilterableField field)

/-- Judge the operator of a binary operation. -/
def judgeBinary (q : Query) (here : Path) (op : Operator) (left right : Expr) : Verdict :=
  if op.isLogical then .delegable
  else
    match op.filterTag? with
    | none => .refused (.operator op.spelling)
    | some tag =>
        (q.checkField (here ++ [0]) left tag op.spelling).andThen
          (q.checkField (here ++ [1]) right tag op.spelling)

/-- Judge the operator of a unary operation. -/
def judgeUnary (q : Query) (here : Path) (op : Operator) (operand : Expr) : Verdict :=
  match op.unaryTag? with
  | some tag => q.checkField (here ++ [0]) operand tag op.spelling
  | none => .delegable

/-- Whether a function may not run at a source at all. -/
def refusesFunction (function : String) (qualifiers : List String) : Bool :=
  !qualifiers.isEmpty || !delegableFunctions.contains function

/-- A judgement that does not replace an earlier one. -/
def tentative (here : Path) (verdict : Verdict) : Judgement :=
  ⟨here, verdict, false⟩

/-- A verdict with the judgements on all parts that led to it, the whole last. -/
structure Judged where
  verdict : Verdict
  judgements : List Judgement
deriving DecidableEq, Repr

/-- Judge the whole behind its parts. -/
def Judged.close (parts : Judged) (here : Path) (verdict : Verdict) : Judged :=
  ⟨verdict, parts.judgements ++ [tentative here verdict]⟩

mutual

/-- Judge an expression and all its parts.  A function that may not run at a source is not looked
into. -/
def judge (q : Query) (here : Path) : Expr → Judged
  | .literal _ _ => ⟨.delegable, [tentative here .delegable]⟩
  | .name identifier span chain whole =>
      let verdict := q.judgeName here (.name identifier span chain whole) identifier.name
      ⟨verdict, [tentative here verdict]⟩
  | .member base _ _ =>
      let inner := judge q (here ++ [0]) base
      inner.close here inner.verdict
  | .call function arguments qualifiers _ =>
      if refusesFunction function qualifiers then
        let verdict := Verdict.refused (.function (Expr.qualifiedName qualifiers function))
        ⟨verdict, [tentative here verdict]⟩
      else
        let parts := judgeAll q here 0 arguments
        parts.close here (parts.verdict.andThen
          (if combinatorFunctions.contains function then .delegable
           else q.checkArguments here function 0 arguments))
  | .record fields _ =>
      let parts := judgeFields q here 0 fields
      parts.close here parts.verdict
  | .table elements _ =>
      let parts := judgeAll q here 0 elements
      parts.close here parts.verdict
  | .unary op operand _ =>
      let part := judge q (here ++ [0]) operand
      part.close here (part.verdict.andThen (q.judgeUnary here op operand))
  | .binary op left right _ =>
      let first := judge q (here ++ [0]) left
      let second := judge q (here ++ [1]) right
      Judged.close ⟨.delegable, first.judgements ++ second.judgements⟩ here
        (first.verdict.andThen (second.verdict.andThen (q.judgeBinary here op left right)))
  | .chain clauses _ =>
      let parts := judgeAll q here 0 clauses
      parts.close here (parts.verdict.andThen (.refused .chain))
  | .hole => ⟨.refused .unknownExpression, [tentative here (.refused .unknownExpression)]⟩

/-- Judge the children from position {lit}`index` on; the verdict is the first refusal. -/
def judgeAll (q : Query) (here : Path) (index : Nat) : List Expr → Judged
  | [] => ⟨.delegable, []⟩
  | e :: rest =>
      let first := judge q (here ++ [index]) e
      let others := judgeAll q here (index + 1) rest
      ⟨first.verdict.andThen others.verdict, first.judgements ++ others.judgements⟩

/-- Judge the field values from position {lit}`index` on; the verdict is the first refusal. -/
def judgeFields (q : Query) (here : Path) (index : Nat) : List Field → Judged
  | [] => ⟨.delegable, []⟩
  | .mk _ value _ :: rest =>
      let first := judge q (here ++ [index]) value
      let others := judgeFields q here (index + 1) rest
      ⟨first.verdict.andThen others.verdict, first.judgements ++ others.judgements⟩

end

/-! ## Clauses -/

/-- What comes of judging a part of a query: the verdict, the judgements, and the warnings. -/
structure Ruling where
  verdict : Verdict
  judgements : List Judgement
  warnings : List Diagnostic
deriving DecidableEq, Repr

/-- A warning about a refused part. -/
def warn (subject : String) (span : Span) : Verdict → List Diagnostic
  | .delegable => []
  | .refused reason =>
      [.report .nonDelegable span (subject ++ " cannot be delegated: " ++ reason.message)]

/-- A clause that is judged as a whole. -/
def leafClause (q : Query) (here : Path) (e : Expr) : Ruling :=
  let judged := q.judge here e
  ⟨judged.verdict, judged.judgements, warn "Clause" e.span judged.verdict⟩

/-- Branches judged one after the other. -/
def Ruling.join (first others : Ruling) : Ruling :=
  ⟨first.verdict.andThen others.verdict, first.judgements ++ others.judgements,
    first.warnings ++ others.warnings⟩

/-- A combination of branches has the verdict of its branches, and no warning of its own. -/
def Ruling.combine (branches : Ruling) (here : Path) : Ruling :=
  { branches with judgements := branches.judgements ++ [⟨here, branches.verdict, true⟩] }

mutual

/-- Judge a clause, splitting combinations into their branches. -/
def clause (q : Query) (here : Path) : Expr → Ruling
  | .unary op operand span =>
      if op.isLogical then (clause q (here ++ [0]) operand).combine here
      else q.leafClause here (.unary op operand span)
  | .binary op left right span =>
      if op.isLogical then
        ((clause q (here ++ [0]) left).join (clause q (here ++ [1]) right)).combine here
      else q.leafClause here (.binary op left right span)
  | .call function arguments qualifiers span =>
      if combinatorFunctions.contains function && qualifiers.isEmpty then
        (clauseAll q here 0 arguments).combine here
      else q.leafClause here (.call function arguments qualifiers span)
  | e => q.leafClause here e

/-- Judge the branches from position {lit}`index` on. -/
def clauseAll (q : Query) (here : Path) (index : Nat) : List Expr → Ruling
  | [] => ⟨.delegable, [], []⟩
  | e :: rest => (clause q (here ++ [index]) e).join (clauseAll q here (index + 1) rest)

end

/-- A part that gets one final verdict. -/
def single (subject : String) (here : Path) (span : Span) (verdict : Verdict) : Ruling :=
  ⟨verdict, [⟨here, verdict, true⟩], warn subject span verdict⟩

/-- Judge a sort expression: it has to be a sortable field of the row. -/
def sortExpression (q : Query) (here : Path) (e : Expr) : Ruling :=
  single "Sort" here e.span <|
    match q.rowField here e with
    | none => .refused .sortExpression
    | some field =>
        match q.fields.get? field with
        | some capability => if capability.sortable then .delegable else .refused (.sortField field)
        | none => .refused (.sortField field)

/-- Whether a capability admits a use of the column. -/
def admits (capability : Capability) : ColumnUse → Bool
  | .sortable => capability.sortable
  | .selectable => capability.selectable

/-- Judge a column argument: it has to be a text literal that names a usable column. -/
def column (q : Query) (use : ColumnUse) (here : Path) (e : Expr) : Ruling :=
  single "Column" here e.span <|
    match e with
    | .literal (.text name) _ =>
        match q.fields.get? name with
        | some capability => if admits capability use then .delegable else .refused (.column name use)
        | none => .refused (.column name use)
    | _ => .refused .columnNotText

end Query

end FormulaLint
