import FormulaLint.Proofs.Grammar.Waiting

/-!
# Steps of the parser

One lemma for each kind of step that the parser takes on a token of the grammar: what it does at
the start of an operand, behind an operand, and behind a finished expression inside each kind of
delimiter.

Main results:

- Theorem {lit}`Work.step_binary`: a binary operator settles the operators that wait.
- Theorem {lit}`Work.step_finish`: any other end of an expression settles all of them.
- Theorem {lit}`Work.step_chain`: a chain starts like the operand that it starts with.
-/

namespace FormulaLint

namespace Expectation

/-- The expression that was read, when its members may still follow. -/
def member? : Expectation → Option Expr
  | .named name quoted span => some (reference name quoted span)
  | .primary e => some e
  | .memberRead base separator separatorSpan name nameSpan =>
      some (accessMember base ⟨separator, name, separatorSpan.cover nameSpan⟩ nameSpan)
  | _ => none

/-- The expression that was read, when an operator may follow. -/
def operand? : Expectation → Option Expr
  | .suffixed e => some e
  | x => x.member?

/-- What has members has operators behind it. -/
theorem operand_of_member {x : Expectation} {e : Expr} (h : x.member? = some e) :
    x.operand? = some e := by
  cases x <;> first | exact h | simp [member?] at h

/-- Whether a chain of expressions has to start. -/
def StartsChain (x : Expectation) : Prop :=
  x = .groupStart ∨ x = .callStart ∨ x = .chainStart

end Expectation

/-- Whether a delimiter holds chains of expressions. -/
def Level.Chains (level : Level) : Prop :=
  level.bracket = .group ∨ ∃ function arguments qualifiers start,
    level.bracket = .call function arguments qualifiers start

namespace Work

variable {s : Setting} {pending : List Pending} {levels rest : List Level} {level : Level}
  {x : Expectation} {last : Span} {t : Token} {e : Expr}

/-! ## Behind an operand -/

/-- Behind an expression whose members may follow, anything but a parenthesis goes there. -/
theorem step_of_member {look : Look} (hx : x.member? = some e) (hlook : opensCall? look = none) :
    Work.step s ⟨pending, levels, x, last⟩ look =
      stepMember s ⟨pending, levels, x, last⟩ e look := by
  cases x <;> simp only [Expectation.member?, Option.some.injEq, reduceCtorEq] at hx <;>
    subst hx <;> simp [step, hlook]

/-- A point or an exclamation mark behind an expression that is not a literal accesses a member. -/
theorem step_access {op : Operator} (hx : x.member? = some e) (hliteral : e.isLiteral = false)
    (hop : op = .dot ∨ op = .notSign) (ht : t.payload = .operator op) :
    Work.step s ⟨pending, levels, x, last⟩ (some t) =
      .next ⟨pending, levels, .memberName e op t.span, t.span⟩ := by
  rw [step_of_member hx (by simp [opensCall?, Look.separator?, ht])]
  rcases hop with rfl | rfl <;>
    simp [stepMember, Look.operator?, ht, hliteral, advance]

/-- The name of a member has to follow the point. -/
theorem step_memberName {op : Operator} {span : Span} {name : String} {quoted : Bool}
    (ht : t.payload = .identifier name quoted) :
    Work.step s ⟨pending, levels, .memberName e op span, last⟩ (some t) =
      .next ⟨pending, levels, .memberRead e op span name t.span, t.span⟩ := by
  simp [step, Look.identifier?, ht, advance]

/-- A parenthesis behind a name opens a call. -/
theorem step_call {name : String} {quoted : Bool} {span : Span} (ht : t.Opens .parenthesis) :
    Work.step s ⟨pending, levels, .named name quoted span, last⟩ (some t) =
      .next ⟨[], ⟨.call name [] [] span, t, pending, t.span, []⟩ :: levels, .callStart,
        t.span⟩ := by
  have hpayload : t.payload = .separator (.opening .parenthesis) := ht
  simp [step, opensCall?, Look.separator?, hpayload, openBracket]

/-- A parenthesis behind a dotted name opens a qualified call. -/
theorem step_qualifiedCall {name : String} {span nameSpan : Span} {qualifiers : List String}
    (hqualifiers : qualifiers? e = some qualifiers) (ht : t.Opens .parenthesis) :
    Work.step s ⟨pending, levels, .memberRead e .dot span name nameSpan, last⟩ (some t) =
      .next ⟨[], ⟨.call name [] qualifiers e.span, t, pending, t.span, []⟩ :: levels, .callStart,
        t.span⟩ := by
  have hpayload : t.payload = .separator (.opening .parenthesis) := ht
  simp [step, opensCall?, Look.separator?, hpayload, hqualifiers, openBracket]

/-- A percent sign may follow every operand. -/
theorem step_percent (hx : x.operand? = some e) (ht : t.payload = .operator .percent) :
    Work.step s ⟨pending, levels, x, last⟩ (some t) =
      .next ⟨pending, levels, .suffixed (.unary .percent e (e.span.cover t.span)), t.span⟩ := by
  have hcall : opensCall? (some t) = none := by simp [opensCall?, Look.separator?, ht]
  cases x <;>
    simp only [Expectation.operand?, Expectation.member?, Option.some.injEq, reduceCtorEq] at hx <;>
    subst hx <;> simp [step, hcall, stepMember, stepSuffix, Look.operator?, ht, advance]

/-- Anything but a parenthesis, a member or a percent sign ends an operand. -/
theorem step_of_operand {look : Look} (hx : x.operand? = some e)
    (hcall : opensCall? look = none) (hpercent : look.operator? ≠ some .percent)
    (hdot : look.operator? ≠ some .dot) (hnot : look.operator? ≠ some .notSign) :
    Work.step s ⟨pending, levels, x, last⟩ look =
      finishOperand s ⟨pending, levels, x, last⟩ e look := by
  have hsuffix : ∀ (w : Work) (e : Expr), stepSuffix s w e look = finishOperand s w e look := by
    intro w e
    unfold stepSuffix
    split
    · rename_i hop
      exact absurd hop hpercent
    · rfl
  have hmember : ∀ (w : Work) (e : Expr), stepMember s w e look = finishOperand s w e look := by
    intro w e
    unfold stepMember
    split
    · rename_i hop
      exact absurd hop hdot
    · rename_i hop
      exact absurd hop hnot
    · exact hsuffix w e
  cases x <;>
    simp only [Expectation.operand?, Expectation.member?, Option.some.injEq, reduceCtorEq] at hx <;>
    subst hx <;> simp [step, hcall, hsuffix, hmember]

/-- A binary operator behind an operand settles the operators that wait, and waits itself. -/
theorem step_binary {op : Operator} {n : Nat} {g : Associativity} {l : Expr}
    {left : List Pending} (hx : x.operand? = some e) (ht : t.payload = .operator op)
    (hop : op.binding? = some (n, g)) (hsettle : settle (some n) pending e = .ok (l, left)) :
    Work.step s ⟨pending, levels, x, last⟩ (some t) =
      .next ⟨.binary op l :: left, levels, .operand, t.span⟩ := by
  have hlook : Look.operator? (some t) = some op := by simp [Look.operator?, ht]
  have hne : op ≠ .percent ∧ op ≠ .dot ∧ op ≠ .notSign := by
    refine ⟨?_, ?_, ?_⟩ <;> rintro rfl <;> simp [Operator.binding?] at hop
  rw [step_of_operand hx (by simp [opensCall?, Look.separator?, ht]) (by simp [hlook, hne.1])
    (by simp [hlook, hne.2.1]) (by simp [hlook, hne.2.2])]
  simp [finishOperand, hlook, hop, hsettle, advance]

/-- Behind an operand, a separator other than an opening parenthesis finishes the expression. -/
theorem step_finish {sep : Separator} {whole : Expr} (hx : x.operand? = some e)
    (ht : t.payload = .separator sep) (hsep : sep ≠ .opening .parenthesis)
    (hsettle : settle none pending e = .ok (whole, [])) :
    Work.step s ⟨pending, levels, x, last⟩ (some t) =
      finishExpression s ⟨[], levels, x, last⟩ whole (some t) := by
  have hlook : Look.operator? (some t) = none := by simp [Look.operator?, ht]
  have hcall : opensCall? (some t) = none := by
    simp only [opensCall?, Look.separator?, ht]
    split
    · rename_i heq
      exact absurd (by simpa using heq) hsep
    · rfl
  rw [step_of_operand hx hcall (by simp [hlook]) (by simp [hlook]) (by simp [hlook])]
  simp [finishOperand, finishOperand.finishAll, hlook, hsettle]

/-! ## At the start of an operand -/

/-- No separator but an opening delimiter starts an operand. -/
theorem startOperand_next {w w' : Work} {sep : Separator} (ht : t.payload = .separator sep)
    (h : startOperand s w (some t) = .next w') : ∃ delimiter, sep = .opening delimiter := by
  cases sep with
  | opening delimiter => exact ⟨delimiter, rfl⟩
  | closing _ | colon | list | chaining => simp [startOperand, ht] at h

/-- A prefix operator waits for the operand behind it. -/
theorem step_unary {op : Operator} (hop : op.isPrefix = true) (ht : t.payload = .operator op) :
    Work.step s ⟨pending, levels, .operand, last⟩ (some t) =
      .next ⟨.unary op t.span :: pending, levels, .operand, t.span⟩ := by
  simp [step, startOperand, ht, hop, advance]

/-- A literal is an operand. -/
theorem step_literal {l : Literal} (ht : t.literal? = some l) :
    Work.step s ⟨pending, levels, .operand, last⟩ (some t) =
      .next ⟨pending, levels, .primary (.literal l t.span), t.span⟩ := by
  unfold Token.literal? at ht
  split at ht
  · rename_i value hpayload
    rcases Option.some.inj ht with rfl
    simp [step, startOperand, hpayload, advance]
  · rename_i value hpayload
    rcases Option.some.inj ht with rfl
    simp [step, startOperand, hpayload, advance]
  · rename_i text hpayload
    split at ht
    · rename_i value hvalue
      rcases Option.some.inj ht with rfl
      simp [step, startOperand, hpayload, hvalue, advance]
    · simp at ht
  · simp at ht

/-- A name is an operand, unless a parenthesis follows. -/
theorem step_name {name : String} {quoted : Bool} (ht : t.payload = .identifier name quoted) :
    Work.step s ⟨pending, levels, .operand, last⟩ (some t) =
      .next ⟨pending, levels, .named name quoted t.span, t.span⟩ := by
  simp [step, startOperand, ht, advance]

/-- A name of the application as a whole is an operand. -/
theorem step_global {name : String} (ht : t.payload = .global name) :
    Work.step s ⟨pending, levels, .operand, last⟩ (some t) =
      .next ⟨pending, levels, .primary (.name (.global name) t.span [] t.span), t.span⟩ := by
  simp [step, startOperand, ht, advance]

/-- A field of a named source is an operand. -/
theorem step_field {source name : String} (ht : t.payload = .field source name) :
    Work.step s ⟨pending, levels, .operand, last⟩ (some t) =
      .next ⟨pending, levels, .primary (.name (.field source name) t.span [] t.span),
        t.span⟩ := by
  simp [step, startOperand, ht, advance]

/-- A parenthesis opens a group. -/
theorem step_group (ht : t.Opens .parenthesis) :
    Work.step s ⟨pending, levels, .operand, last⟩ (some t) =
      .next ⟨[], ⟨.group, t, pending, t.span, []⟩ :: levels, .groupStart, t.span⟩ := by
  have hpayload : t.payload = .separator (.opening .parenthesis) := ht
  simp [step, startOperand, hpayload, openBracket]

/-- A brace opens a record. -/
theorem step_record (ht : t.Opens .brace) :
    Work.step s ⟨pending, levels, .operand, last⟩ (some t) =
      .next ⟨[], ⟨.record [] "" t.span, t, pending, t.span, []⟩ :: levels, .fieldStart,
        t.span⟩ := by
  have hpayload : t.payload = .separator (.opening .brace) := ht
  simp [step, startOperand, hpayload, openBracket]

/-- A bracket opens a table. -/
theorem step_table (ht : t.Opens .bracket) :
    Work.step s ⟨pending, levels, .operand, last⟩ (some t) =
      .next ⟨[], ⟨.table [], t, pending, t.span, []⟩ :: levels, .elementStart, t.span⟩ := by
  have hpayload : t.payload = .separator (.opening .bracket) := ht
  simp [step, startOperand, hpayload, openBracket]

/-- A token that starts an operand ends no chain. -/
theorem endsChain_of_startOperand {w w' : Work} (h : startOperand s w (some t) = .next w') :
    endsChain (some t) = false := by
  unfold endsChain
  split
  · rename_i hlook
    simp only [Look.separator?] at hlook
    split at hlook
    · rename_i sep hpayload
      rcases startOperand_next hpayload h with ⟨delimiter, rfl⟩
      simp at hlook
    · simp at hlook
  · rename_i hlook
    simp only [Look.separator?] at hlook
    split at hlook
    · rename_i sep hpayload
      rcases startOperand_next hpayload h with ⟨delimiter, rfl⟩
      simp at hlook
    · simp at hlook
  · simp at *
  · rfl

/-- A token that starts an operand closes no delimiter. -/
theorem separator_of_startOperand {w w' : Work} (h : startOperand s w (some t) = .next w')
    (delimiter : Delimiter) : Look.separator? (some t) ≠ some (.closing delimiter) := by
  intro hlook
  have hends := endsChain_of_startOperand h
  simp [endsChain, hlook] at hends

/-- A chain starts like the operand that it starts with, and remembers where. -/
theorem step_chain {w : Work} (hx : x.StartsChain)
    (h : Work.step s ⟨pending, { level with chainStart := t.span, clauses := [] } :: rest, .operand,
      last⟩ (some t) = .next w) :
    Work.step s ⟨pending, level :: rest, x, last⟩ (some t) = .next w := by
  have hstart : startChain s ⟨pending, level :: rest, x, last⟩ (some t) = .next w := h
  have hclosing := separator_of_startOperand h .parenthesis
  rcases hx with rfl | rfl | rfl
  · simp only [step, hclosing, ↓reduceIte]
    exact hstart
  · simp only [step]
    split
    · rename_i hlook _
      exact absurd hlook hclosing
    · exact hstart
  · exact hstart

/-- Behind the separator of a chain the next clause starts. -/
theorem step_chainNext {w : Work}
    (h : Work.step s ⟨pending, level :: rest, .operand, last⟩ (some t) = .next w) :
    Work.step s ⟨pending, level :: rest, .chainNext, last⟩ (some t) = .next w := by
  have hends := endsChain_of_startOperand h
  simp only [step, hends, Bool.false_eq_true, ↓reduceIte]
  exact h

/-- Behind the bracket of a table the first element starts. -/
theorem step_elementStart {w : Work}
    (h : Work.step s ⟨pending, level :: rest, .operand, last⟩ (some t) = .next w) :
    Work.step s ⟨pending, level :: rest, .elementStart, last⟩ (some t) = .next w := by
  have hclosing := separator_of_startOperand h .bracket
  simp only [step, hclosing, ↓reduceIte]
  exact h

/-! ## Behind a finished expression -/

/-- Closing the right delimiter leaves the level. -/
theorem closeLevel_of_closes {build : Span → Expr} (ht : t.Closes level.bracket.delimiter) :
    closeLevel s level rest (some t) build =
      .next ⟨level.outer, rest, .primary (build t.span), t.span⟩ := by
  have hpayload : t.payload = .separator (.closing level.bracket.delimiter) := ht
  simp [closeLevel, Look.separator?, hpayload]

/-- A chaining separator behind an expression of a chain asks for the next clause. -/
theorem finishExpression_chaining (hlevel : level.Chains) (ht : t.Chains) :
    finishExpression s ⟨pending, level :: rest, x, last⟩ e (some t) =
      .next ⟨[], { level with clauses := level.clauses ++ [e] } :: rest, .chainNext, t.span⟩ := by
  have hpayload : t.payload = .separator .chaining := ht
  rcases hlevel with hbracket | ⟨_, _, _, _, hbracket⟩ <;>
    simp [finishExpression, hbracket, Look.separator?, hpayload]

/-- Any other separator behind an expression of a chain ends the chain. -/
theorem finishExpression_chain {sep : Separator} (hlevel : level.Chains)
    (ht : t.payload = .separator sep) (hsep : sep ≠ .chaining) :
    finishExpression s ⟨pending, level :: rest, x, last⟩ e (some t) =
      finishChain s { level with clauses := level.clauses ++ [e] } rest last (some t) := by
  rcases hlevel with hbracket | ⟨_, _, _, _, hbracket⟩ <;> cases sep <;>
    first | exact absurd rfl hsep | simp [finishExpression, hbracket, Look.separator?, ht]

/-- Behind the separator of a chain, the end of the chain may follow. -/
theorem step_chainNext_end (hends : endsChain (some t) = true) :
    Work.step s ⟨pending, level :: rest, .chainNext, last⟩ (some t) =
      finishChain s level rest last (some t) := by
  simp [step, hends]

/-- A list separator behind a chain asks for the next argument. -/
theorem finishChain_argument {function : String} {arguments : List Expr}
    {qualifiers : List String} {start : Span}
    (hbracket : level.bracket = .call function arguments qualifiers start) (ht : t.Lists) :
    finishChain s level rest last (some t) =
      .next ⟨[], { level with
        bracket := .call function (arguments ++ [chainExpr level last]) qualifiers start } :: rest,
        .chainStart, t.span⟩ := by
  have hpayload : t.payload = .separator .list := ht
  simp [finishChain, hbracket, Look.separator?, hpayload, nextPart]

/-- A parenthesis behind a chain closes the call. -/
theorem finishChain_call {function : String} {arguments : List Expr}
    {qualifiers : List String} {start : Span}
    (hbracket : level.bracket = .call function arguments qualifiers start)
    (ht : t.Closes .parenthesis) :
    finishChain s level rest last (some t) =
      .next ⟨level.outer, rest, .primary (.call function (arguments ++ [chainExpr level last])
        qualifiers (start.cover t.span)), t.span⟩ := by
  have hpayload : t.payload = .separator (.closing .parenthesis) := ht
  have hcloses : t.Closes level.bracket.delimiter := by rw [hbracket]; exact ht
  simp [finishChain, hbracket, Look.separator?, hpayload, closeLevel_of_closes hcloses]

/-- A parenthesis behind a chain closes the group. -/
theorem finishChain_group (hbracket : level.bracket = .group) (ht : t.Closes .parenthesis) :
    finishChain s level rest last (some t) =
      .next ⟨level.outer, rest, .primary (chainExpr level last), t.span⟩ := by
  have hcloses : t.Closes level.bracket.delimiter := by rw [hbracket]; exact ht
  simp [finishChain, hbracket, closeLevel_of_closes hcloses]

/-- A parenthesis right behind the one that opened a call closes it. -/
theorem step_callStart_close {function : String} {arguments : List Expr}
    {qualifiers : List String} {start : Span}
    (hbracket : level.bracket = .call function arguments qualifiers start)
    (ht : t.Closes .parenthesis) :
    Work.step s ⟨pending, level :: rest, .callStart, last⟩ (some t) =
      .next ⟨level.outer, rest, .primary (.call function arguments qualifiers
        (start.cover t.span)), t.span⟩ := by
  have hpayload : t.payload = .separator (.closing .parenthesis) := ht
  have hcloses : t.Closes level.bracket.delimiter := by rw [hbracket]; exact ht
  simp [step, Look.separator?, hpayload, hbracket, closeLevel_of_closes hcloses]

/-- A list separator behind an expression of a table asks for the next element. -/
theorem finishExpression_element {elements : List Expr}
    (hbracket : level.bracket = .table elements) (ht : t.Lists) :
    finishExpression s ⟨pending, level :: rest, x, last⟩ e (some t) =
      .next ⟨[], { level with bracket := .table (elements ++ [e]) } :: rest, .operand,
        t.span⟩ := by
  have hpayload : t.payload = .separator .list := ht
  simp [finishExpression, hbracket, Look.separator?, hpayload, nextPart]

/-- A bracket behind an expression of a table closes the table. -/
theorem finishExpression_table {elements : List Expr}
    (hbracket : level.bracket = .table elements) (ht : t.Closes .bracket) :
    finishExpression s ⟨pending, level :: rest, x, last⟩ e (some t) =
      .next ⟨level.outer, rest, .primary (.table (elements ++ [e])
        (level.opening.span.cover t.span)), t.span⟩ := by
  have hpayload : t.payload = .separator (.closing .bracket) := ht
  have hcloses : t.Closes level.bracket.delimiter := by rw [hbracket]; exact ht
  simp [finishExpression, hbracket, Look.separator?, hpayload, closeTable,
    closeLevel_of_closes hcloses]

/-- A bracket right behind the one that opened a table closes it. -/
theorem step_elementStart_close {elements : List Expr}
    (hbracket : level.bracket = .table elements) (ht : t.Closes .bracket) :
    Work.step s ⟨pending, level :: rest, .elementStart, last⟩ (some t) =
      .next ⟨level.outer, rest, .primary (.table [] (level.opening.span.cover t.span)),
        t.span⟩ := by
  have hpayload : t.payload = .separator (.closing .bracket) := ht
  have hcloses : t.Closes level.bracket.delimiter := by rw [hbracket]; exact ht
  simp [step, Look.separator?, hpayload, closeTable, closeLevel_of_closes hcloses]

/-- A list separator behind the value of a field asks for the next field. -/
theorem finishExpression_field {fields : List Field} {name : String} {nameSpan : Span}
    (hbracket : level.bracket = .record fields name nameSpan) (ht : t.Lists) :
    finishExpression s ⟨pending, level :: rest, x, last⟩ e (some t) =
      .next ⟨[], { level with
        bracket := .record (fields ++ [.mk name e (nameSpan.cover e.span)]) name nameSpan } :: rest,
        .fieldName, t.span⟩ := by
  have hpayload : t.payload = .separator .list := ht
  simp [finishExpression, hbracket, Look.separator?, hpayload, nextPart]

/-- A brace behind the value of a field closes the record. -/
theorem finishExpression_record {fields : List Field} {name : String} {nameSpan : Span}
    (hbracket : level.bracket = .record fields name nameSpan) (ht : t.Closes .brace) :
    finishExpression s ⟨pending, level :: rest, x, last⟩ e (some t) =
      .next ⟨level.outer, rest, .primary (.record
        (fields ++ [.mk name e (nameSpan.cover e.span)]) (level.opening.span.cover t.span)),
        t.span⟩ := by
  have hpayload : t.payload = .separator (.closing .brace) := ht
  have hcloses : t.Closes level.bracket.delimiter := by rw [hbracket]; exact ht
  simp [finishExpression, hbracket, Look.separator?, hpayload, closeRecord,
    closeLevel_of_closes hcloses]

/-- A brace right behind the one that opened a record closes it. -/
theorem step_fieldStart_close {fields : List Field} {name : String} {nameSpan : Span}
    (hbracket : level.bracket = .record fields name nameSpan) (ht : t.Closes .brace) :
    Work.step s ⟨pending, level :: rest, .fieldStart, last⟩ (some t) =
      .next ⟨level.outer, rest, .primary (.record [] (level.opening.span.cover t.span)),
        t.span⟩ := by
  have hpayload : t.payload = .separator (.closing .brace) := ht
  have hcloses : t.Closes level.bracket.delimiter := by rw [hbracket]; exact ht
  simp [step, Look.separator?, hpayload, closeRecord, closeLevel_of_closes hcloses]

/-- The name of a field. -/
theorem step_fieldName {fields : List Field} {name name' : String} {nameSpan : Span}
    {quoted : Bool} (hx : x = .fieldStart ∨ x = .fieldName)
    (hbracket : level.bracket = .record fields name nameSpan)
    (ht : t.payload = .identifier name' quoted) :
    Work.step s ⟨pending, level :: rest, x, last⟩ (some t) =
      .next ⟨[], { level with bracket := .record fields name' t.span } :: rest, .colon,
        t.span⟩ := by
  rcases hx with rfl | rfl <;>
    simp [step, step.fieldName, Look.separator?, Look.identifier?, ht, hbracket, nextPart]

/-- The colon behind the name of a field. -/
theorem step_colon (ht : t.payload = .separator .colon) :
    Work.step s ⟨pending, level :: rest, .colon, last⟩ (some t) =
      .next ⟨pending, level :: rest, .operand, t.span⟩ := by
  simp [step, Look.separator?, ht, advance]

/-! ## At the end of a clause -/

/-- Outside all delimiters an operand completes the clause at the end of the formula. -/
theorem step_end {whole : Expr} (hx : x.operand? = some e)
    (hsettle : settle none pending e = .ok (whole, [])) :
    Work.step s ⟨pending, [], x, last⟩ none = .complete whole := by
  rw [step_of_operand hx rfl (by simp [Look.operator?]) (by simp [Look.operator?])
    (by simp [Look.operator?])]
  simp [finishOperand, finishOperand.finishAll, hsettle, finishExpression, Look.separator?]

/-- Outside all delimiters an operand completes the clause in front of a chaining separator. -/
theorem step_chaining {whole : Expr} (hx : x.operand? = some e)
    (hsettle : settle none pending e = .ok (whole, [])) (ht : t.Chains) :
    Work.step s ⟨pending, [], x, last⟩ (some t) = .complete whole := by
  have hpayload : t.payload = .separator .chaining := ht
  rw [step_finish hx ht (by simp) hsettle]
  simp [finishExpression, Look.separator?, hpayload]

end Work

end FormulaLint
