import FormulaLint.Delegation.Query
import FormulaLint.Proofs.Paths

/-!
# The policy behind the verdicts

What a data source may run, said part by part: no chain of expressions, only the functions that a
source knows, names that stand for something, filterable fields of the row, and operators and
functions that the fields they are applied to support.  A clause is delegable exactly when every one
of its parts is permitted; a combination of clauses, exactly when each of its branches is delegable.

Main results:

- Theorem {lit}`Query.rowField_iff`: the fields of the row, by what names are bound to.
- Theorem {lit}`Query.judge_iff`: a verdict on an expression, by its own policy and its children.
- Theorems {lit}`Query.sortExpression_iff` and {lit}`Query.column_iff`: the verdicts on fields to sort
  by and on columns.
- Theorem {lit}`Query.clause_policy`: the verdicts on expressions and clauses, by the policy.
-/

namespace FormulaLint

/-! ## The policy -/

namespace Query

/-- Whether an expression reads a field of a row of the source: a name that is bound to the field, or
a keyword for a record of the source with the field as its first member. -/
def ReadsField (q : Query) (here : Path) (e : Expr) (field : String) : Prop :=
  (∃ identifier identifierSpan chain span, e = .name identifier identifierSpan chain span) ∧
    ∃ b, q.bindings.get? here = some b ∧
      (b.kind = .dataSourceField ∧ b.source = some q.source ∧ b.name = field ∨
        b.kind = .contextKeyword ∧ b.member = some field ∧
          ∃ frame, b.frame = some frame ∧ frame.source = some q.source)

/-- Whether the field that an expression reads, if it reads one, can be used in a filter with the
operator or function of a tag. -/
def Supports (q : Query) (here : Path) (e : Expr) (tag : String) : Prop :=
  ∀ field, q.ReadsField here e field →
    ∃ capability, q.fields.get? field = some capability ∧ capability.supports tag = true

/-- Whether the source may run a part of an expression, its own parts apart. -/
def Permits (q : Query) (here : Path) : Expr → Prop
  | .literal _ _ | .member _ _ _ | .record _ _ | .table _ _ => True
  | .chain _ _ | .hole => False
  | .name identifier identifierSpan chain span =>
      (∃ b, q.bindings.get? here = some b ∧ b.kind ≠ .unresolved) ∧
        ∀ field, q.ReadsField here (.name identifier identifierSpan chain span) field →
          ∃ capability, q.fields.get? field = some capability ∧ capability.filterable = true
  | .call function arguments qualifiers _ =>
      qualifiers = [] ∧ function ∈ delegableFunctions ∧
        (function ∉ combinatorFunctions → ∀ i argument, arguments[i]? = some argument →
          q.Supports (here ++ [i]) argument (Text.lower function))
  | .unary op operand _ =>
      ∀ tag, op.unaryTag? = some tag → q.Supports (here ++ [0]) operand tag
  | .binary op left right _ =>
      op.isLogical = false → ∃ tag, op.filterTag? = some tag ∧
        q.Supports (here ++ [0]) left tag ∧ q.Supports (here ++ [1]) right tag

end Query

/-- Whether an expression joins or negates conditions. -/
def Expr.isCombinator : Expr → Bool
  | .unary op _ _ | .binary op _ _ _ => op.isLogical
  | .call function _ qualifiers _ => combinatorFunctions.contains function && qualifiers.isEmpty
  | _ => false

/-- What holds at every position of a list, by its first item and the others. -/
theorem forall_getElem?_cons {α : Type} {P : Nat → α → Prop} {a : α} {l : List α} :
    (∀ i c, (a :: l)[i]? = some c → P i c) ↔ P 0 a ∧ ∀ i c, l[i]? = some c → P (i + 1) c := by
  constructor
  · intro h
    exact ⟨h 0 a rfl, fun i c hc => h (i + 1) c hc⟩
  · rintro ⟨hfirst, hrest⟩ i c hc
    cases i with
    | zero =>
        obtain rfl : a = c := by simpa using hc
        exact hfirst
    | succ i => exact hrest i c (by simpa using hc)

namespace Query

variable {q : Query} {here : Path}

/-! ## Fields of the row -/

/-- The field of the row that an expression reads, by what it is bound to. -/
theorem rowField_iff {e : Expr} {field : String} :
    q.rowField here e = some field ↔ q.ReadsField here e field := by
  cases e with
  | name identifier identifierSpan chain span =>
      simp only [rowField, ReadsField]
      cases hget : q.bindings.get? here with
      | none => simp
      | some b =>
          by_cases hfield : b.kind = .dataSourceField
          · simp [hfield]
          · by_cases hkeyword : b.kind = .contextKeyword
            · cases hframe : b.frame with
              | none => simp [hkeyword, hframe]
              | some frame =>
                  by_cases hsource : frame.source = some q.source <;>
                    simp [hkeyword, hframe, hsource]
            · simp [hfield, hkeyword]
  | _ => simp [rowField, ReadsField]

/-- The check of an operand is passed exactly when the operand supports what is applied to it. -/
theorem checkField_iff {operand : Expr} {tag spelling : String} :
    (q.checkField here operand tag spelling).isDelegable = true ↔ q.Supports here operand tag := by
  unfold checkField Supports
  simp only [← rowField_iff]
  cases q.rowField here operand with
  | none => simp
  | some field =>
      cases hget : q.fields.get? field with
      | none => simp [hget]
      | some capability =>
          by_cases hsupports : capability.supports tag <;>
            simp [hget, hsupports]

/-- The check of the arguments is passed exactly when each of them supports the function. -/
theorem checkArguments_iff {function : String} {index : Nat} {arguments : List Expr} :
    (q.checkArguments here function index arguments).isDelegable = true ↔
      ∀ i argument, arguments[i]? = some argument →
        q.Supports (here ++ [index + i]) argument (Text.lower function) := by
  induction arguments generalizing index with
  | nil => simp [checkArguments]
  | cons e rest ih =>
      rw [checkArguments, Verdict.isDelegable_andThen, Bool.and_eq_true, checkField_iff, ih,
        forall_getElem?_cons]
      simp only [Nat.add_zero, Nat.add_right_comm, Nat.add_assoc]

/-! ## Judging by parts -/

/-- Judging field values is judging the list of values. -/
theorem judgeFields_eq (q : Query) (here : Path) (index : Nat) (fields : List Field) :
    judgeFields q here index fields = judgeAll q here index (fields.map Field.value) := by
  induction fields generalizing index with
  | nil => rfl
  | cons field rest ih =>
      rcases field with ⟨name, value, span⟩
      rw [judgeFields, ih, List.map_cons, judgeAll]
      rfl

/-- Children are delegable together exactly when each of them is. -/
theorem judgeAll_iff {index : Nat} {es : List Expr} :
    (judgeAll q here index es).verdict.isDelegable = true ↔
      ∀ i c, es[i]? = some c → (q.judge (here ++ [index + i]) c).verdict.isDelegable = true := by
  induction es generalizing index with
  | nil => simp [judgeAll]
  | cons e rest ih =>
      rw [judgeAll, Verdict.isDelegable_andThen, Bool.and_eq_true, ih, forall_getElem?_cons]
      simp only [Nat.add_zero, Nat.add_right_comm, Nat.add_assoc]

/-- A name is delegable exactly when the policy permits it. -/
theorem judgeName_iff {identifier : Identifier} {identifierSpan span : Span} {chain : List Segment}
    {name : String} :
    (q.judgeName here (.name identifier identifierSpan chain span) name).isDelegable = true ↔
      q.Permits here (.name identifier identifierSpan chain span) := by
  simp only [judgeName, Permits, ← rowField_iff]
  cases hget : q.bindings.get? here with
  | none => simp
  | some b =>
      by_cases hkind : b.kind = .unresolved
      · simp [hkind]
      · cases q.rowField here (.name identifier identifierSpan chain span) with
        | none => simp [hkind]
        | some field =>
            cases hfield : q.fields.get? field with
            | none => simp [hkind, hfield]
            | some capability =>
                by_cases hfilterable : capability.filterable <;>
                  simp [hkind, hfield, hfilterable]

/-- The operator of a unary operation is delegable exactly when the policy permits it. -/
theorem judgeUnary_iff (op : Operator) (operand : Expr) (span : Span) :
    (q.judgeUnary here op operand).isDelegable = true ↔
      q.Permits here (.unary op operand span) := by
  simp only [judgeUnary, Permits]
  cases op.unaryTag? with
  | none => simp
  | some tag => simp [checkField_iff]

/-- The operator of a binary operation is delegable exactly when the policy permits it. -/
theorem judgeBinary_iff (op : Operator) (left right : Expr) (span : Span) :
    (q.judgeBinary here op left right).isDelegable = true ↔
      q.Permits here (.binary op left right span) := by
  simp only [judgeBinary, Permits]
  by_cases hlogical : op.isLogical = true
  · simp [hlogical]
  · cases op.filterTag? with
    | none => simp [hlogical]
    | some tag => simp [hlogical, checkField_iff]

/-- A function that a source may run is delegable exactly when the policy permits it. -/
theorem checkCall_iff {function : String} {qualifiers : List String} (arguments : List Expr)
    (span : Span) (h : refusesFunction function qualifiers = false) :
    (if combinatorFunctions.contains function then Verdict.delegable
      else q.checkArguments here function 0 arguments).isDelegable = true ↔
      q.Permits here (.call function arguments qualifiers span) := by
  simp only [refusesFunction, Bool.or_eq_false_iff, Bool.not_eq_false', List.isEmpty_iff,
    List.contains_iff_mem] at h
  rcases h with ⟨rfl, hfunction⟩
  by_cases hjoins : function ∈ combinatorFunctions
  · simp [Permits, hfunction, hjoins]
  · simp [Permits, hfunction, hjoins, checkArguments_iff]

/-- A verdict on an expression is favourable exactly when the policy permits the expression and the
verdicts on its children are favourable. -/
theorem judge_iff (e : Expr) :
    (q.judge here e).verdict.isDelegable = true ↔
      q.Permits here e ∧ ∀ i c, e.children[i]? = some c →
        (q.judge (here ++ [i]) c).verdict.isDelegable = true := by
  cases e with
  | literal value span => simp [judge, Permits, Expr.children]
  | hole => simp [judge, Permits, Expr.children]
  | name identifier identifierSpan chain span =>
      simp [judge, Expr.children, judgeName_iff]
  | member base chain span =>
      simp [judge, Judged.close, Permits, Expr.children, forall_getElem?_cons]
  | record fields span =>
      simp [judge, Judged.close, Permits, Expr.children, judgeFields_eq, judgeAll_iff]
  | table elements span =>
      simp [judge, Judged.close, Permits, Expr.children, judgeAll_iff]
  | chain clauses span =>
      simp [judge, Judged.close, Permits]
  | unary op operand span =>
      simp only [judge, Judged.close, Verdict.isDelegable_andThen, Bool.and_eq_true,
        judgeUnary_iff op operand span, Expr.children, forall_getElem?_cons]
      simp [and_comm]
  | binary op left right span =>
      simp only [judge, Judged.close, Verdict.isDelegable_andThen, Bool.and_eq_true,
        judgeBinary_iff op left right span, Expr.children, forall_getElem?_cons]
      simp [and_comm, and_left_comm]
  | call function arguments qualifiers span =>
      by_cases hrefused : refusesFunction function qualifiers = true
      · have hpolicy : ¬ q.Permits here (.call function arguments qualifiers span) := by
          rintro ⟨rfl, hfunction, -⟩
          simp [refusesFunction, hfunction] at hrefused
        simp [judge, hrefused, hpolicy]
      · rw [Bool.not_eq_true] at hrefused
        simp only [judge, hrefused, Bool.false_eq_true, ↓reduceIte, Judged.close,
          Verdict.isDelegable_andThen, Bool.and_eq_true, checkCall_iff arguments span hrefused,
          judgeAll_iff, Nat.zero_add, Expr.children]
        exact and_comm

/-- A verdict on an expression is favourable exactly when the policy permits every part of it. -/
theorem judge_iff_walk (e : Expr) :
    (q.judge here e).verdict.isDelegable = true ↔
      ∀ part ∈ e.walkFrom here, q.Permits part.1 part.2 := by
  induction e using Expr.children_induct generalizing here with
  | step e ih =>
      rw [judge_iff, Expr.walkFrom_eq, List.forall_mem_cons, walkAll_eq_flatMap,
        List.forall_mem_flatMap]
      refine and_congr_right fun _ => ?_
      constructor
      · rintro h ⟨c, i⟩ hc
        have hchild := List.mem_zipIdx_iff_getElem?.mp hc
        exact (ih c (List.mem_of_getElem? hchild)).mp (h i c hchild)
      · intro h i c hchild
        exact (ih c (List.mem_of_getElem? hchild)).mpr
          (h (c, i) (List.mem_zipIdx_iff_getElem?.mpr hchild))

/-! ## Clauses -/

/-- Branches are delegable together exactly when each of them is. -/
theorem clauseAll_iff {index : Nat} {es : List Expr} :
    (clauseAll q here index es).verdict.isDelegable = true ↔
      ∀ i c, es[i]? = some c → (q.clause (here ++ [index + i]) c).verdict.isDelegable = true := by
  induction es generalizing index with
  | nil => simp [clauseAll]
  | cons e rest ih =>
      rw [clauseAll, Ruling.join, Verdict.isDelegable_andThen, Bool.and_eq_true, ih,
        forall_getElem?_cons]
      simp only [Nat.add_zero, Nat.add_right_comm, Nat.add_assoc]

/-- A clause that is no combination is judged as a whole. -/
theorem clause_of_leaf {e : Expr} (h : e.isCombinator = false) :
    q.clause here e = q.leafClause here e := by
  cases e with
  | unary op operand span | binary op left right span =>
      have hlogical : op.isLogical = false := h
      simp [clause, hlogical]
  | call function arguments qualifiers span =>
      have hplain : (combinatorFunctions.contains function && qualifiers.isEmpty) = false := h
      rw [clause, hplain, if_neg Bool.false_ne_true]
  | _ => rfl

/-- A combination of clauses is delegable exactly when each of its branches is. -/
theorem clause_of_combinator {e : Expr} (h : e.isCombinator = true) :
    (q.clause here e).verdict.isDelegable = true ↔
      ∀ i c, e.children[i]? = some c → (q.clause (here ++ [i]) c).verdict.isDelegable = true := by
  cases e with
  | unary op operand span =>
      have hlogical : op.isLogical = true := h
      simp [clause, hlogical, Ruling.combine, Expr.children, forall_getElem?_cons]
  | binary op left right span =>
      have hlogical : op.isLogical = true := h
      simp [clause, hlogical, Ruling.combine, Ruling.join, Expr.children, forall_getElem?_cons]
  | call function arguments qualifiers span =>
      have hjoins : (combinatorFunctions.contains function && qualifiers.isEmpty) = true := h
      rw [clause, if_pos hjoins, Ruling.combine, clauseAll_iff, Expr.children]
      simp
  | _ => simp [Expr.isCombinator] at h

/-! ## Fields to sort by and columns -/

/-- A sort expression is delegable exactly when it reads a field of the row that is sortable. -/
theorem sortExpression_iff {e : Expr} :
    (q.sortExpression here e).verdict.isDelegable = true ↔
      ∃ field, q.ReadsField here e field ∧
        ∃ capability, q.fields.get? field = some capability ∧ capability.sortable = true := by
  simp only [← rowField_iff, sortExpression, single]
  cases q.rowField here e with
  | none => simp
  | some field =>
      cases hget : q.fields.get? field with
      | none => simp [hget]
      | some capability =>
          by_cases hsortable : capability.sortable <;> simp [hget, hsortable]

/-- A column is delegable exactly when it is a text that names a field which admits the use. -/
theorem column_iff {use : ColumnUse} {e : Expr} :
    (q.column use here e).verdict.isDelegable = true ↔
      ∃ name span, e = .literal (.text name) span ∧
        ∃ capability, q.fields.get? name = some capability ∧ admits capability use = true := by
  simp only [column, single]
  split
  · rename_i name span
    cases hget : q.fields.get? name with
    | none => simp [hget]
    | some capability =>
        by_cases hadmits : admits capability use = true <;> simp [hget, hadmits]
  · rename_i hnoText
    simp only [Verdict.isDelegable_refused, Bool.false_eq_true, false_iff]
    rintro ⟨name, span, rfl, -⟩
    exact hnoText name span rfl

/-- The verdicts of a query, by the policy.  A verdict on an expression is favourable exactly when
every part of the expression is permitted.  A clause that is no combination has the verdict on its
expression; a combination is delegable exactly when each of its branches is. -/
theorem clause_policy (q : Query) (here : Path) (e : Expr) :
    ((q.judge here e).verdict.isDelegable = true ↔
      ∀ part ∈ e.walkFrom here, q.Permits part.1 part.2) ∧
    ((q.clause here e).verdict.isDelegable = true ↔
      if e.isCombinator then
        ∀ i c, e.children[i]? = some c → (q.clause (here ++ [i]) c).verdict.isDelegable = true
      else ∀ part ∈ e.walkFrom here, q.Permits part.1 part.2) := by
  refine ⟨judge_iff_walk e, ?_⟩
  cases hcombinator : e.isCombinator with
  | true => simpa using clause_of_combinator hcombinator
  | false =>
      rw [clause_of_leaf hcombinator, if_neg Bool.false_ne_true]
      exact judge_iff_walk e

end Query

end FormulaLint
