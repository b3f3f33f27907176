import FormulaLint.Proofs.Binding.Scopes
import FormulaLint.Proofs.Delegation.Orders

/-!
# Spellings of logical operations

A conjunction, a disjunction or a negation can be spelled by a sign, by a word or by a function.  All
spellings have the same parts at the same places, bind the same names and are judged alike, although
the function puts one more call around its parts, which changes the order in which queries are
judged.

Main results:

- Theorem {lit}`Expr.spelledAs_eq`: what is the same for all spellings of an operation.
- Theorem {lit}`Expr.bindNames_respell`: another spelling binds the same names.
- Theorem {lit}`Query.judge_respell` and {lit}`Query.clause_respell`: another spelling is judged alike.
- Theorem {lit}`Expr.querySites_respell`: the queries of another spelling.
- Theorem {lit}`delegation_respell`: the verdicts and warnings of another spelling.
-/

namespace FormulaLint

/-! ## Logical operations -/

/-- How a logical operation is spelled. -/
inductive Spelling where
  | sign
  | word
  | function
deriving DecidableEq, Repr

/-- A logical operation with what it applies to. -/
inductive Logical where
  | conjunction (left right : Expr)
  | disjunction (left right : Expr)
  | negation (operand : Expr)

/-- A logical operation in a spelling, at a place. -/
def Logical.spelled (span : Span) : Logical → Spelling → Expr
  | conjunction left right, .sign => .binary .andSign left right span
  | conjunction left right, .word => .binary .andWord left right span
  | conjunction left right, .function => .call "And" [left, right] [] span
  | disjunction left right, .sign => .binary .orSign left right span
  | disjunction left right, .word => .binary .orWord left right span
  | disjunction left right, .function => .call "Or" [left, right] [] span
  | negation operand, .sign => .unary .notSign operand span
  | negation operand, .word => .unary .notWord operand span
  | negation operand, .function => .call "Not" [operand] [] span

namespace Expr

/-- The logical operation that an expression is, in whatever spelling. -/
def logical? : Expr → Option Logical
  | .binary .andSign left right _ | .binary .andWord left right _ => some (.conjunction left right)
  | .binary .orSign left right _ | .binary .orWord left right _ => some (.disjunction left right)
  | .unary .notSign operand _ | .unary .notWord operand _ => some (.negation operand)
  | .call function [left, right] [] _ =>
      if function = "And" then some (.conjunction left right)
      else if function = "Or" then some (.disjunction left right)
      else none
  | .call function [operand] [] _ => if function = "Not" then some (.negation operand) else none
  | _ => none

/-- An expression with another spelling, if it is a logical operation and one is chosen for it. -/
def spelledAs (choice : Option Spelling) (e : Expr) : Expr :=
  match choice, e.logical? with
  | some spelling, some operation => operation.spelled e.span spelling
  | _, _ => e

end Expr

mutual

/-- An expression with another spelling for every logical operation for which one is chosen;
{lit}`here` is the path of the expression. -/
def Expr.respell (choose : Path → Option Spelling) (here : Path) : Expr → Expr
  | .literal value span => .literal value span
  | .name identifier identifierSpan members span => .name identifier identifierSpan members span
  | .member base members span => .member (base.respell choose (here ++ [0])) members span
  | .call function arguments qualifiers span =>
      (Expr.call function (respellAll choose here 0 arguments) qualifiers span).spelledAs (choose here)
  | .record fields span => .record (respellFields choose here 0 fields) span
  | .table elements span => .table (respellAll choose here 0 elements) span
  | .unary op operand span =>
      (Expr.unary op (operand.respell choose (here ++ [0])) span).spelledAs (choose here)
  | .binary op left right span =>
      (Expr.binary op (left.respell choose (here ++ [0])) (right.respell choose (here ++ [1]))
        span).spelledAs (choose here)
  | .chain clauses span => .chain (respellAll choose here 0 clauses) span
  | .hole => .hole

/-- Other spellings in the children from position {lit}`index` on. -/
def respellAll (choose : Path → Option Spelling) (here : Path) (index : Nat) :
    List Expr → List Expr
  | [] => []
  | e :: rest =>
      e.respell choose (here ++ [index]) :: respellAll choose here (index + 1) rest

/-- Other spellings in the field values from position {lit}`index` on. -/
def respellFields (choose : Path → Option Spelling) (here : Path) (index : Nat) :
    List Field → List Field
  | [] => []
  | .mk name value span :: rest =>
      .mk name (value.respell choose (here ++ [index])) span ::
        respellFields choose here (index + 1) rest

end

variable {choose : Path → Option Spelling} {here : Path}

/-! ## What spellings have in common -/

namespace Expr

/-- A logical operation is spelled in one of the ways. -/
theorem exists_spelling {e : Expr} {operation : Logical} (h : e.logical? = some operation) :
    ∃ spelling, e = operation.spelled e.span spelling := by
  unfold logical? at h
  split at h
  case h_1 | h_3 | h_5 =>
    obtain rfl := Option.some.inj h
    exact ⟨.sign, rfl⟩
  case h_2 | h_4 | h_6 =>
    obtain rfl := Option.some.inj h
    exact ⟨.word, rfl⟩
  case h_7 =>
    split_ifs at h with hand hor
    all_goals
      subst_vars
      obtain rfl := Option.some.inj h
      exact ⟨.function, rfl⟩
  case h_8 =>
    split_ifs at h with hnot
    subst hnot
    obtain rfl := Option.some.inj h
    exact ⟨.function, rfl⟩
  case h_9 => simp at h

/-- An expression with another spelling is the expression, or a logical operation that it is. -/
theorem spelledAs_cases (choice : Option Spelling) (e : Expr) :
    e.spelledAs choice = e ∨ ∃ (operation : Logical) (spelling spelling' : Spelling),
      e = operation.spelled e.span spelling ∧ e.spelledAs choice = operation.spelled e.span spelling' := by
  unfold spelledAs
  split
  · rename_i spelling operation hoperation
    rcases exists_spelling hoperation with ⟨written, hwritten⟩
    exact Or.inr ⟨operation, written, spelling, hwritten, rfl⟩
  · exact Or.inl rfl

/-- What is the same for all spellings of an operation does not change with the spelling. -/
theorem spelledAs_eq {α : Type} {f : Expr → α}
    (h : ∀ span operation spelling,
      f (Logical.spelled span operation spelling) = f (operation.spelled span .function))
    (choice : Option Spelling) (e : Expr) : f (e.spelledAs choice) = f e := by
  rcases e.spelledAs_cases choice with heq | ⟨operation, spelling, spelling', hfrom, hto⟩
  · rw [heq]
  · rw [hto, h]
    exact ((congrArg f hfrom).trans (h _ _ _)).symm

/-- Other spellings of children are other spellings of each child. -/
theorem respellAll_eq_map (index : Nat) (es : List Expr) :
    respellAll choose here index es =
      (es.zipIdx index).map fun c => c.1.respell choose (here ++ [c.2]) := by
  induction es generalizing index with
  | nil => rfl
  | cons e rest ih => rw [respellAll, ih, List.zipIdx_cons, List.map_cons]

/-- Other spellings of field values are those of the list of values. -/
theorem map_value_respellFields (index : Nat) (fields : List Field) :
    (respellFields choose here index fields).map Field.value =
      respellAll choose here index (fields.map Field.value) := by
  induction fields generalizing index with
  | nil => rfl
  | cons field rest ih =>
      rcases field with ⟨name, value, span⟩
      rw [respellFields, List.map_cons, ih, List.map_cons, respellAll]
      rfl

/-- All spellings of an operation have the same parts. -/
theorem children_spelledAs (choice : Option Spelling) (e : Expr) :
    (e.spelledAs choice).children = e.children :=
  spelledAs_eq (fun _ operation spelling => by cases operation <;> cases spelling <;> rfl) choice e

/-- All spellings of an operation stand at the same place. -/
theorem span_spelledAs (choice : Option Spelling) (e : Expr) :
    (e.spelledAs choice).span = e.span :=
  spelledAs_eq (fun _ operation spelling => by cases operation <;> cases spelling <;> rfl) choice e

/-- Another spelling has the same children in another spelling. -/
theorem children_respell (e : Expr) :
    (e.respell choose here).children = respellAll choose here 0 e.children := by
  cases e with
  | call _ _ _ _ | unary _ _ _ | binary _ _ _ _ =>
      rw [respell, children_spelledAs]
      rfl
  | record fields _ => exact map_value_respellFields 0 fields
  | _ => rfl

/-- Another spelling stands at the same place. -/
theorem span_respell (e : Expr) : (e.respell choose here).span = e.span := by
  cases e with
  | call _ _ _ _ | unary _ _ _ | binary _ _ _ _ =>
      rw [respell, span_spelledAs]
      rfl
  | _ => rfl

/-- Another spelling joins or negates conditions alike. -/
theorem isCombinator_respell (e : Expr) : (e.respell choose here).isCombinator = e.isCombinator := by
  have hspelled : ∀ choice e, (spelledAs choice e).isCombinator = e.isCombinator :=
    spelledAs_eq fun _ operation spelling => by cases operation <;> cases spelling <;> rfl
  cases e with
  | call _ _ _ _ | unary _ _ _ | binary _ _ _ _ =>
      rw [respell, hspelled]
      rfl
  | _ => rfl

/-- A part of another spelling is another spelling of the part. -/
theorem at?_respell (e : Expr) (rel : Path) :
    (e.respell choose here).at? rel =
      (e.at? rel).map fun part => part.respell choose (here ++ rel) := by
  induction rel generalizing e here with
  | nil => simp
  | cons i rest ih =>
      rw [at?, at?, children_respell, respellAll_eq_map, List.getElem?_map, List.getElem?_zipIdx]
      cases e.children[i]? with
      | none => rfl
      | some c => simp [ih]

end Expr

/-! ## Binding -/

/-- All spellings of an operation have no rows. -/
theorem tableSource_spelledAs (bindings : Bindings) (here : Path) (choice : Option Spelling)
    (e : Expr) : tableSource bindings here (e.spelledAs choice) = tableSource bindings here e :=
  Expr.spelledAs_eq (f := tableSource bindings here)
    (fun _ operation spelling => by cases operation <;> cases spelling <;> rfl) choice e

/-- Another spelling has the rows of the same source. -/
theorem tableSource_respell (bindings : Bindings) (e : Expr) (here at' : Path) :
    tableSource bindings here (e.respell choose at') = tableSource bindings here e := by
  induction e using Expr.children_induct generalizing here at' with
  | step e ih =>
      cases e with
      | call function arguments qualifiers span =>
          rw [Expr.respell, tableSource_spelledAs]
          cases arguments with
          | nil => rfl
          | cons first rest =>
              cases qualifiers with
              | nil => simp [respellAll, tableSource, ih first (List.mem_cons_self ..)]
              | cons _ _ => rfl
      | unary _ _ _ | binary _ _ _ _ =>
          rw [Expr.respell, tableSource_spelledAs]
          rfl
      | _ => rfl

/-- All spellings of an operation bind the same names. -/
theorem bindNames_spelledAs (symbols : SymbolTable) (scope : Scope) (here : Path)
    (choice : Option Spelling) (e : Expr) :
    (e.spelledAs choice).bindNames symbols scope here = e.bindNames symbols scope here := by
  refine Expr.spelledAs_eq (f := Expr.bindNames symbols scope here) ?_ choice e
  intro _ operation spelling
  cases operation <;> cases spelling <;>
    simp [Logical.spelled, Expr.bindNames, bindAll, recordScopeFunctions]

/-- Other spellings of children bind the same names. -/
theorem bindAll_respellAll {es : List Expr}
    (h : ∀ e ∈ es, ∀ symbols scope here at',
      (e.respell choose at').bindNames symbols scope here = e.bindNames symbols scope here)
    (symbols : SymbolTable) (scope : Scope) (here at' : Path) (index index' : Nat) :
    bindAll symbols scope here index (respellAll choose at' index' es) =
      bindAll symbols scope here index es := by
  induction es generalizing index index' with
  | nil => rfl
  | cons e rest ih =>
      rw [respellAll, bindAll, bindAll, h e (List.mem_cons_self ..),
        ih fun e' he' => h e' (List.mem_cons_of_mem e he')]

/-- Another spelling binds the same names. -/
theorem Expr.bindNames_respell (symbols : SymbolTable) (scope : Scope) (e : Expr)
    (here at' : Path) :
    (e.respell choose at').bindNames symbols scope here = e.bindNames symbols scope here := by
  induction e using Expr.children_induct generalizing symbols scope here at' with
  | step e ih =>
      have hall := bindAll_respellAll ih
      cases e with
      | literal _ _ | name _ _ _ _ | hole => rfl
      | member base _ _ => exact ih base (List.mem_singleton_self base) _ _ _ _
      | record fields _ =>
          rw [respell, bindNames, bindNames, bindFields_eq, bindFields_eq, map_value_respellFields]
          exact hall ..
      | table _ _ | chain _ _ => exact hall ..
      | unary _ operand _ =>
          rw [respell, bindNames_spelledAs]
          exact ih operand (List.mem_singleton_self operand) _ _ _ _
      | binary op left right span =>
          rw [respell, bindNames_spelledAs, bindNames, bindNames, ih left (by simp [children]),
            ih right (by simp [children])]
      | call function arguments qualifiers span =>
          rw [respell, bindNames_spelledAs, bindNames.eq_def, bindNames.eq_def]
          dsimp only
          cases arguments with
          | nil => rfl
          | cons first rest =>
              have hrest := bindAll_respellAll fun e he => ih e (List.mem_cons_of_mem first he)
              simp only [respellAll, bindAll, ih first (List.mem_cons_self ..), tableSource_respell,
                hrest]

/-! ## Judging -/

/-- A favourable verdict behind another one changes nothing. -/
@[simp] theorem Verdict.andThen_delegable (v : Verdict) : v.andThen .delegable = v := by
  cases v <;> rfl

namespace Query

variable {q : Query}

/-- Another spelling reads the same field of the row. -/
theorem rowField_respell (e : Expr) (here at' : Path) :
    q.rowField here (e.respell choose at') = q.rowField here e := by
  have hspelled : ∀ choice e, q.rowField here (Expr.spelledAs choice e) = q.rowField here e :=
    Expr.spelledAs_eq fun _ operation spelling => by
      cases operation <;> cases spelling <;> rfl
  cases e with
  | call _ _ _ _ | unary _ _ _ | binary _ _ _ _ =>
      rw [Expr.respell, hspelled]
      rfl
  | _ => rfl

/-- Another spelling supports the same operators and functions. -/
theorem checkField_respell (e : Expr) (here at' : Path) (tag spelling : String) :
    q.checkField here (e.respell choose at') tag spelling = q.checkField here e tag spelling := by
  rw [checkField, checkField, rowField_respell]

/-- Other spellings of arguments support the same functions. -/
theorem checkArguments_respellAll (es : List Expr) (here at' : Path) (function : String)
    (index index' : Nat) :
    q.checkArguments here function index (respellAll choose at' index' es) =
      q.checkArguments here function index es := by
  induction es generalizing index index' with
  | nil => rfl
  | cons e rest ih => rw [respellAll, checkArguments, checkArguments, checkField_respell, ih]

/-- All spellings of an operation are judged alike. -/
theorem judge_spelledAs (choice : Option Spelling) (e : Expr) (here : Path) :
    q.judge here (e.spelledAs choice) = q.judge here e := by
  refine Expr.spelledAs_eq (f := q.judge here) ?_ choice e
  intro _ operation spelling
  cases operation <;> cases spelling <;>
    simp [Logical.spelled, judge, judgeAll, Judged.close, judgeBinary, judgeUnary,
      refusesFunction, delegableFunctions, combinatorFunctions, Operator.isLogical,
      Operator.unaryTag?]

/-- Other spellings of children are judged alike. -/
theorem judgeAll_respellAll {es : List Expr}
    (h : ∀ e ∈ es, ∀ here at', q.judge here (e.respell choose at') = q.judge here e)
    (here at' : Path) (index index' : Nat) :
    q.judgeAll here index (respellAll choose at' index' es) = q.judgeAll here index es := by
  induction es generalizing index index' with
  | nil => rfl
  | cons e rest ih =>
      rw [respellAll, judgeAll, judgeAll, h e (List.mem_cons_self ..),
        ih fun e' he' => h e' (List.mem_cons_of_mem e he')]

/-- Another spelling is judged alike. -/
theorem judge_respell (e : Expr) (here at' : Path) :
    q.judge here (e.respell choose at') = q.judge here e := by
  induction e using Expr.children_induct generalizing here at' with
  | step e ih =>
      have hall := judgeAll_respellAll ih
      cases e with
      | literal _ _ | name _ _ _ _ | hole => rfl
      | member base _ _ =>
          rw [Expr.respell, judge, judge, ih base (List.mem_singleton_self base)]
      | record fields _ =>
          simp only [Expr.children] at hall
          rw [Expr.respell, judge, judge, judgeFields_eq, judgeFields_eq,
            Expr.map_value_respellFields, hall]
      | table _ _ | chain _ _ =>
          simp only [Expr.children] at hall
          rw [Expr.respell, judge, judge, hall]
      | unary op operand _ =>
          rw [Expr.respell, judge_spelledAs, judge, judge, judgeUnary, judgeUnary]
          simp only [checkField_respell, ih operand (List.mem_singleton_self operand)]
      | binary op left right _ =>
          rw [Expr.respell, judge_spelledAs, judge, judge, judgeBinary, judgeBinary]
          simp only [checkField_respell, ih left (by simp [Expr.children]),
            ih right (by simp [Expr.children])]
      | call function arguments qualifiers _ =>
          simp only [Expr.children] at hall
          rw [Expr.respell, judge_spelledAs, judge, judge, checkArguments_respellAll, hall]

/-- All spellings of an operation are judged alike as clauses. -/
theorem clause_spelledAs (choice : Option Spelling) (e : Expr) (here : Path) :
    q.clause here (e.spelledAs choice) = q.clause here e := by
  refine Expr.spelledAs_eq (f := q.clause here) ?_ choice e
  intro _ operation spelling
  cases operation <;> cases spelling <;>
    simp [Logical.spelled, clause, clauseAll, Ruling.join, Ruling.combine, combinatorFunctions,
      Operator.isLogical]

/-- A clause in another spelling that is judged as a whole. -/
theorem leafClause_respell (e : Expr) (here at' : Path) :
    q.leafClause here (e.respell choose at') = q.leafClause here e := by
  rw [leafClause, leafClause, judge_respell, Expr.span_respell]

/-- Other spellings of branches are judged alike. -/
theorem clauseAll_respellAll {es : List Expr}
    (h : ∀ e ∈ es, ∀ here at', q.clause here (e.respell choose at') = q.clause here e)
    (here at' : Path) (index index' : Nat) :
    q.clauseAll here index (respellAll choose at' index' es) = q.clauseAll here index es := by
  induction es generalizing index index' with
  | nil => rfl
  | cons e rest ih =>
      rw [respellAll, clauseAll, clauseAll, h e (List.mem_cons_self ..),
        ih fun e' he' => h e' (List.mem_cons_of_mem e he')]

/-- Another spelling of a clause is judged alike. -/
theorem clause_respell (e : Expr) (here at' : Path) :
    q.clause here (e.respell choose at') = q.clause here e := by
  induction e using Expr.children_induct generalizing here at' with
  | step e ih =>
      have hall := clauseAll_respellAll ih
      cases hcombinator : e.isCombinator with
      | false =>
          rw [clause_of_leaf hcombinator, clause_of_leaf (e.isCombinator_respell.trans hcombinator),
            leafClause_respell]
      | true =>
          cases e with
          | unary op operand _ =>
              have hlogical : op.isLogical = true := hcombinator
              rw [Expr.respell, clause_spelledAs, clause, clause, if_pos hlogical, if_pos hlogical,
                ih operand (List.mem_singleton_self operand)]
          | binary op left right _ =>
              have hlogical : op.isLogical = true := hcombinator
              rw [Expr.respell, clause_spelledAs, clause, clause, if_pos hlogical, if_pos hlogical,
                ih left (by simp [Expr.children]), ih right (by simp [Expr.children])]
          | call function arguments qualifiers _ =>
              have hjoins : (combinatorFunctions.contains function && qualifiers.isEmpty) = true :=
                hcombinator
              simp only [Expr.children] at hall
              rw [Expr.respell, clause_spelledAs, clause, clause, if_pos hjoins, if_pos hjoins, hall]
          | _ => simp [Expr.isCombinator] at hcombinator

/-- Another spelling is sorted by alike. -/
theorem sortExpression_respell (e : Expr) (here at' : Path) :
    q.sortExpression here (e.respell choose at') = q.sortExpression here e := by
  rw [sortExpression, sortExpression, rowField_respell, Expr.span_respell]

/-- Another spelling is a column alike. -/
theorem column_respell (use : ColumnUse) (e : Expr) (here at' : Path) :
    q.column use here (e.respell choose at') = q.column use here e := by
  have hspelled : ∀ choice e, q.column use here (Expr.spelledAs choice e) = q.column use here e :=
    Expr.spelledAs_eq fun _ operation spelling => by
      cases operation <;> cases spelling <;> rfl
  cases e with
  | call _ _ _ _ | unary _ _ _ | binary _ _ _ _ =>
      rw [Expr.respell, hspelled]
      rfl
  | _ => rfl

/-- Another spelling of an argument is ruled on alike. -/
theorem ruling_respell (role : ArgumentRole) (e : Expr) (here at' : Path) :
    q.ruling role here (e.respell choose at') = q.ruling role here e := by
  cases role with
  | condition => exact clause_respell e here at'
  | field => exact sortExpression_respell e here at'
  | column use => exact column_respell use e here at'

end Query

/-! ## Queries -/

namespace Expr

/-- A logical operation queries no source. -/
theorem isQueryCall_spelled (span : Span) (operation : Logical) (spelling : Spelling) :
    isQueryCall (operation.spelled span spelling) = false := by
  cases operation <;> cases spelling <;> rfl

/-- A call of a function that queries a source. -/
theorem isQueryCall_call {function : String} (hfunction : function ∈ queryFunctions)
    {arguments : List Expr} {qualifiers : List String} {span : Span} :
    isQueryCall (call function arguments qualifiers span) = true :=
  List.contains_iff_mem.mpr hfunction

/-- A call of a function that queries a source has no other spelling. -/
theorem respell_query {function : String} (hfunction : function ∈ queryFunctions)
    (arguments : List Expr) (qualifiers : List String) (span : Span) :
    (call function arguments qualifiers span).respell choose here =
      .call function (respellAll choose here 0 arguments) qualifiers span := by
  rw [respell]
  rcases spelledAs_cases (choose here)
    (call function (respellAll choose here 0 arguments) qualifiers span) with
    heq | ⟨operation, spelling, spelling', hfrom, -⟩
  · exact heq
  · exact absurd (hfrom ▸ isQueryCall_call hfunction) (by simp [isQueryCall_spelled])

/-- What is spelled as a call of a function that queries a source is such a call. -/
theorem exists_of_respell_query {e : Expr} {function : String} {arguments : List Expr}
    {qualifiers : List String} {span : Span} (hfunction : function ∈ queryFunctions)
    (h : e.respell choose here = .call function arguments qualifiers span) :
    ∃ own, e = .call function own qualifiers span ∧ arguments = respellAll choose here 0 own := by
  -- no spelling of an operation is such a call, so nothing but arguments was spelled otherwise
  have hplain : ∀ {shell : Expr}, shell.spelledAs (choose here) =
      .call function arguments qualifiers span → shell = .call function arguments qualifiers span := by
    intro shell hshell
    rcases spelledAs_cases (choose here) shell with heq | ⟨operation, spelling, spelling', -, hto⟩
    · rw [← heq, hshell]
    · rw [hshell] at hto
      exact absurd (hto ▸ isQueryCall_call hfunction) (by simp [isQueryCall_spelled])
  cases e with
  | call function' own qualifiers' span' =>
      rw [respell] at h
      cases hplain h
      exact ⟨own, rfl, rfl⟩
  | unary _ _ _ | binary _ _ _ _ =>
      rw [respell] at h
      cases hplain h
  | _ => cases h

end Expr

namespace CallSite

/-- A call in another spelling, with the number of calls around it there. -/
def respell (choose : Path → Option Spelling) (depth : Nat) (site : CallSite) : CallSite :=
  { site with depth, arguments := respellAll choose site.path 0 site.arguments }

variable {capabilities : CapabilityTable} {bindings : Bindings} {judging : Judging}

/-- A call in another spelling makes the same query. -/
theorem query?_respell (site : CallSite) (depth : Nat) :
    (site.respell choose depth).query? capabilities bindings =
      site.query? capabilities bindings := by
  rcases site with ⟨path, siteDepth, function, arguments, qualifiers, span⟩
  cases arguments with
  | nil => rfl
  | cons first rest => simp [query?, respell, respellAll, tableSource_respell]

/-- A query in another spelling is ruled on alike. -/
theorem rulings_respell (site : CallSite) (depth : Nat) (q : Query) :
    (site.respell choose depth).rulings q = site.rulings q := by
  have hzip : ∀ (es : List Expr) (index : Nat),
      (respellAll choose site.path index es).zipIdx index =
        (es.zipIdx index).map fun c => (c.1.respell choose (site.path ++ [c.2]), c.2) := by
    intro es
    induction es with
    | nil => exact fun _ => rfl
    | cons e rest ih =>
        intro index
        rw [respellAll, List.zipIdx_cons, ih, List.zipIdx_cons, List.map_cons]
  rw [rulings_eq, rulings_eq, respell, hzip, List.filterMap_map]
  refine List.filterMap_congr fun c _ => ?_
  simp only [Function.comp_apply, Query.ruling_respell]
  rfl

/-- A query in another spelling is judged alike. -/
theorem judge_respell (site : CallSite) (depth : Nat) :
    judge capabilities bindings judging (site.respell choose depth) =
      judge capabilities bindings judging site := by
  simp only [judge, query?_respell, rulings_respell]
  rfl

end CallSite

variable (choose) in
/-- The queries of another spelling, in some order. -/
theorem Expr.querySites_respell (e : Expr) :
    (e.respell choose []).querySites.Perm (e.querySites.map fun site =>
      site.respell choose ((e.respell choose []).callDepth site.path)) := by
  have hnodup : ∀ {sites : List CallSite}, (sites.Pairwise fun a b => a.path ≠ b.path) →
      sites.Nodup := fun h => h.imp fun hne heq => hne (congrArg CallSite.path heq)
  have hmap : (e.querySites.map fun site => site.respell choose
      ((e.respell choose []).callDepth site.path)).Pairwise fun a b => a.path ≠ b.path :=
    List.pairwise_map.mpr e.pairwise_path_querySites
  rw [List.perm_ext_iff_of_nodup (hnodup (pairwise_path_querySites _)) (hnodup hmap)]
  intro site
  rw [List.mem_map, mem_querySites_iff, at?_respell, List.nil_append, Option.map_eq_some_iff]
  constructor
  · rintro ⟨⟨part, hat, hpart⟩, hdepth, hfunction, hplain⟩
    rcases exists_of_respell_query hfunction hpart with ⟨own, rfl, harguments⟩
    refine ⟨{ site with depth := e.callDepth site.path, arguments := own },
      mem_querySites_iff.mpr ⟨hat, rfl, hfunction, hplain⟩, ?_⟩
    rw [CallSite.respell, ← harguments, ← hdepth]
  · rintro ⟨own, hown, rfl⟩
    rcases mem_querySites_iff.mp hown with ⟨hat, -, hfunction, hplain⟩
    exact ⟨⟨_, hat, respell_query hfunction _ _ _⟩, rfl, hfunction, hplain⟩

/-- Logical operations are judged alike in every spelling.  Whatever spelling is chosen for which of
them, the parts stay where they are, the names are bound alike, every part keeps its verdict with its
reason, and the warnings stay the same up to their order. -/
theorem delegation_respell (capabilities : CapabilityTable) (symbols : SymbolTable) (scope : Scope)
    (choose : Path → Option Spelling) (e : Expr) :
    let e' := e.respell choose []
    let bindings := (resolve symbols scope e).bindings
    let report := delegation capabilities bindings e
    let report' := delegation capabilities (resolve symbols scope e').bindings e'
    (∀ path, e'.at? path = (e.at? path).map fun part => part.respell choose path) ∧
      (resolve symbols scope e').bindings = bindings ∧
      (∀ path, report'.verdicts.get? path = report.verdicts.get? path) ∧
      report'.diagnostics.Perm report.diagnostics := by
  intro e' bindings report report'
  have hbindings : (resolve symbols scope e').bindings = bindings := by
    simp only [bindings, e', resolve, Expr.bindNames_respell]
  let respelled := e.querySites.map fun site => site.respell choose (e'.callDepth site.path)
  have hperm : e'.querySites.Perm respelled := Expr.querySites_respell choose e
  have hinner : CallSite.InnerFirst respelled := List.pairwise_map.mpr e.innerFirst_querySites
  have hsame : respelled.foldl (CallSite.judge capabilities bindings) ⟨.empty, []⟩ =
      e.querySites.foldl (CallSite.judge capabilities bindings) ⟨.empty, []⟩ := by
    simp only [respelled, List.foldl_map, CallSite.judge_respell]
  refine ⟨fun path => e.at?_respell path, hbindings, fun path => ?_, ?_⟩
  · have hverdicts := CallSite.foldl_judge_perm capabilities bindings hperm
      e'.innerFirst_querySites hinner ⟨.empty, []⟩ path
    rw [hsame] at hverdicts
    simp only [report', hbindings]
    exact hverdicts
  · have hwarnings := CallSite.warnings_foldl_judge_perm capabilities bindings hperm ⟨.empty, []⟩
    rw [hsame] at hwarnings
    simp only [report', hbindings]
    exact (sortDiagnostics_perm _).trans (hwarnings.trans (sortDiagnostics_perm _).symm)

example (span : Span) (flag other : Identifier) :
    (Expr.binary .andSign (.name flag span [] span)
        (.unary .notWord (.name other span [] span) span) span).respell
      (fun _ => some .function) [] =
        .call "And" [.name flag span [] span, .call "Not" [.name other span [] span] [] span] []
          span := rfl

end FormulaLint
