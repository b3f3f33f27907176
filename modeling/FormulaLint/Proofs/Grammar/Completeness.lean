import FormulaLint.Proofs.Grammar.Steps
import FormulaLint.Proofs.Outcomes

/-!
# Reading what the grammar derives

Whatever the grammar derives, the parser takes up token by token.  What this means differs from
one kind of phrase to the next: behind an operand the operators in front of it still wait, behind
a chain the delimiter around it is still open.  One induction on the derivation carries all kinds.

Main results:

- Theorem {lit}`Derives.read`: the parser reads every phrase of the grammar.
- Theorem {lit}`Derives.runs_clause`: an expression is read as a whole clause with its own tree.
-/

namespace FormulaLint

namespace Work

/-- The clause in progress takes up all the tokens and ends up as the second one. -/
inductive Runs (s : Setting) : Work → List Token → Work → Prop where
  | nil {w : Work} : Runs s w [] w
  | cons {w w' w'' : Work} {t : Token} {ts : List Token} (hstep : w.step s (some t) = .next w')
      (hrest : Runs s w' ts w'') : Runs s w (t :: ts) w''

namespace Runs

variable {s : Setting} {w w' w'' : Work} {t : Token} {ts ts' : List Token}

/-- One token. -/
theorem single (h : w.step s (some t) = .next w') : Runs s w [t] w' :=
  cons h nil

/-- One run after the other. -/
theorem append (h : Runs s w ts w') (h' : Runs s w' ts' w'') : Runs s w (ts ++ ts') w'' := by
  induction h with
  | nil => exact h'
  | cons hstep _ ih => exact cons hstep (ih h')

/-- A run and one more token. -/
theorem snoc (h : Runs s w ts w') (hstep : w'.step s (some t) = .next w'') :
    Runs s w (ts ++ [t]) w'' :=
  h.append (single hstep)

/-- A run depends on where it starts only by its first step. -/
theorem congr_start {w₀ : Work} (h : Runs s w₀ (t :: ts) w')
    (hstep : ∀ w'', w₀.step s (some t) = .next w'' → w.step s (some t) = .next w'') :
    Runs s w (t :: ts) w' := by
  cases h with
  | cons hfirst hrest => exact cons (hstep _ hfirst) hrest

/-- The last token of a run is the last token read. -/
theorem last_eq (h : Runs s w ts w') (ht : ts.getLast? = some t) : w'.last = t.span := by
  induction h with
  | nil => simp at ht
  | @cons w w₁ w₂ t₁ ts hstep hrest ih =>
      cases ts with
      | nil =>
          cases hrest
          have htracks := step_tracks (s := s) w (some t₁)
          rw [hstep] at htracks
          rcases htracks with ⟨t', hlook, hlast, -⟩
          have h₁ : t₁ = t := by simpa using ht
          have h₂ : t₁ = t' := by simpa using hlook
          rw [hlast, ← h₂, h₁]
      | cons t₂ ts =>
          rw [List.getLast?_cons_cons] at ht
          exact ih ht

end Runs

end Work

/-! ## Reading phrases -/

/-- What it means that the parser reads the tokens of a phrase: where it stands behind them.
Levels and waiting operators around the phrase are arbitrary. -/
def Phrase.Read (s : Setting) (ts : List Token) : Phrase → Prop
  | .primary e | .member e =>
      ∀ pending levels last, ∃ x last', x.member? = some e ∧
        Work.Runs s ⟨pending, levels, .operand, last⟩ ts ⟨pending, levels, x, last'⟩
  | .suffixed e =>
      ∀ pending levels last, ∃ x last', x.operand? = some e ∧
        Work.Runs s ⟨pending, levels, .operand, last⟩ ts ⟨pending, levels, x, last'⟩
  | .level n e =>
      ∀ pending levels last, Takes pending n → ∃ pending' x operand last',
        x.operand? = some operand ∧
        Work.Runs s ⟨pending, levels, .operand, last⟩ ts ⟨pending', levels, x, last'⟩ ∧
        ∀ next, Ends next n → settle next pending' operand = settle next pending e
  | .clauses es =>
      ts ≠ [] ∧ ∀ level rest last, level.Chains → level.clauses = [] →
        StartsAt level.chainStart ts →
        ∃ front e pending x operand last', es = front ++ [e] ∧ x.operand? = some operand ∧
          settle none pending operand = .ok (e, []) ∧
          Work.Runs s ⟨[], level :: rest, .operand, last⟩ ts
            ⟨pending, { level with clauses := front } :: rest, x, last'⟩
  | .chain e =>
      ∀ level rest last x, level.Chains → x.StartsChain → ∃ w chainStart clauses last',
        chainExpr { level with chainStart, clauses } last' = e ∧
        Work.Runs s ⟨[], level :: rest, x, last⟩ ts w ∧
        ∀ t, t.Closes .parenthesis ∨ t.Lists → w.step s (some t) =
          finishChain s { level with chainStart, clauses } rest last' (some t)
  | .arguments es =>
      ∀ level rest last function qualifiers start,
        level.bracket = .call function [] qualifiers start → ∃ w,
        Work.Runs s ⟨[], level :: rest, .callStart, last⟩ ts w ∧
        (∀ t, t.Closes .parenthesis → w.step s (some t) =
          .next ⟨level.outer, rest, .primary (.call function es qualifiers (start.cover t.span)),
            t.span⟩) ∧
        (es ≠ [] → ∃ chainStart clauses, ∀ t, t.Lists → w.step s (some t) =
          .next ⟨[], ⟨.call function es qualifiers start, level.opening, level.outer, chainStart,
            clauses⟩ :: rest, .chainStart, t.span⟩)
  | .elements es =>
      ∀ level rest last, level.bracket = .table [] → ∃ w,
        Work.Runs s ⟨[], level :: rest, .elementStart, last⟩ ts w ∧
        (∀ t, t.Closes .bracket → w.step s (some t) =
          .next ⟨level.outer, rest, .primary (.table es (level.opening.span.cover t.span)),
            t.span⟩) ∧
        (es ≠ [] → ∀ t, t.Lists → w.step s (some t) =
          .next ⟨[], { level with bracket := .table es } :: rest, .operand, t.span⟩)
  | .fields fs =>
      ∀ level rest last name nameSpan, level.bracket = .record [] name nameSpan → ∃ w,
        Work.Runs s ⟨[], level :: rest, .fieldStart, last⟩ ts w ∧
        (∀ t, t.Closes .brace → w.step s (some t) =
          .next ⟨level.outer, rest, .primary (.record fs (level.opening.span.cover t.span)),
            t.span⟩) ∧
        (fs ≠ [] → ∃ name' nameSpan', ∀ t, t.Lists → w.step s (some t) =
          .next ⟨[], { level with bracket := .record fs name' nameSpan' } :: rest, .fieldName,
            t.span⟩)

namespace Phrase

variable {s : Setting} {e l r : Expr} {es : List Expr} {ts ts' : List Token}
  {t opening closing separator : Token} {name : String} {quoted : Bool}

/-- A call of a plain function. -/
theorem read_call (hname : t.payload = .identifier name quoted)
    (hopening : opening.Opens .parenthesis) (harguments : (arguments es).Read s ts)
    (hclosing : closing.Closes .parenthesis) :
    (primary (.call name es [] (t.span.cover closing.span))).Read s
      (t :: opening :: (ts ++ [closing])) := by
  intro pending levels last
  obtain ⟨w, hruns, hclose, -⟩ := harguments
    ⟨.call name [] [] t.span, opening, pending, opening.span, []⟩ levels opening.span _ _ _ rfl
  refine ⟨.primary _, closing.span, rfl, ?_⟩
  exact .cons (Work.step_name hname) (.cons (Work.step_call hopening)
    (hruns.snoc (hclose closing hclosing)))

/-- A group. -/
theorem read_group (hopening : opening.Opens .parenthesis) (hchain : (chain e).Read s ts)
    (hclosing : closing.Closes .parenthesis) :
    (primary e).Read s (opening :: (ts ++ [closing])) := by
  intro pending levels last
  obtain ⟨w, chainStart, clauses, last', rfl, hruns, hends⟩ := hchain
    ⟨.group, opening, pending, opening.span, []⟩ levels opening.span .groupStart (.inl rfl)
    (.inl rfl)
  refine ⟨.primary _, closing.span, rfl, .cons (Work.step_group hopening) (hruns.snoc ?_)⟩
  rw [hends closing (.inl hclosing), Work.finishChain_group rfl hclosing]

/-- A record. -/
theorem read_record {fs : List Field} (hopening : opening.Opens .brace)
    (hfields : (fields fs).Read s ts) (hclosing : closing.Closes .brace) :
    (primary (.record fs (opening.span.cover closing.span))).Read s
      (opening :: (ts ++ [closing])) := by
  intro pending levels last
  obtain ⟨w, hruns, hclose, -⟩ := hfields
    ⟨.record [] "" opening.span, opening, pending, opening.span, []⟩ levels opening.span _ _ rfl
  exact ⟨.primary _, closing.span, rfl,
    .cons (Work.step_record hopening) (hruns.snoc (hclose closing hclosing))⟩

/-- A table. -/
theorem read_table (hopening : opening.Opens .bracket) (helements : (elements es).Read s ts)
    (hclosing : closing.Closes .bracket) :
    (primary (.table es (opening.span.cover closing.span))).Read s
      (opening :: (ts ++ [closing])) := by
  intro pending levels last
  rcases helements ⟨.table [], opening, pending, opening.span, []⟩ levels opening.span rfl
    with ⟨w, hruns, hclose, -⟩
  exact ⟨.primary _, closing.span, rfl,
    .cons (Work.step_table hopening) (hruns.snoc (hclose closing hclosing))⟩

/-- A member access. -/
theorem read_access {op : Operator} (hbase : (member e).Read s ts)
    (hliteral : e.isLiteral = false) (hop : op = .dot ∨ op = .notSign)
    (hseparator : separator.payload = .operator op) (hname : t.payload = .identifier name quoted) :
    (member (accessMember e ⟨op, name, separator.span.cover t.span⟩ t.span)).Read s
      (ts ++ [separator, t]) := by
  intro pending levels last
  rcases hbase pending levels last with ⟨x, last', hx, hruns⟩
  refine ⟨.memberRead e op separator.span name t.span, t.span, rfl, ?_⟩
  exact hruns.append (.cons (Work.step_access hx hliteral hop hseparator)
    (.single (Work.step_memberName hname)))

/-- No literal qualifies a function. -/
theorem isLiteral_of_qualifiers {qualifiers : List String} (h : qualifiers? e = some qualifiers) :
    e.isLiteral = false := by
  cases e with
  | literal value span => simp [qualifiers?] at h
  | _ => rfl

/-- A call of a qualified function. -/
theorem read_qualifiedCall {qualifiers : List String} {point : Token} (hbase : (member e).Read s ts)
    (hqualifiers : qualifiers? e = some qualifiers) (hpoint : point.payload = .operator .dot)
    (hname : t.payload = .identifier name quoted) (hopening : opening.Opens .parenthesis)
    (harguments : (arguments es).Read s ts') (hclosing : closing.Closes .parenthesis) :
    (member (.call name es qualifiers (e.span.cover closing.span))).Read s
      (ts ++ point :: t :: opening :: (ts' ++ [closing])) := by
  intro pending levels last
  rcases hbase pending levels last with ⟨x, last', hx, hruns⟩
  obtain ⟨w, hinner, hclose, -⟩ := harguments
    ⟨.call name [] qualifiers e.span, opening, pending, opening.span, []⟩ levels opening.span
    _ _ _ rfl
  refine ⟨.primary _, closing.span, rfl, hruns.append ?_⟩
  exact .cons (Work.step_access hx (isLiteral_of_qualifiers hqualifiers) (.inl rfl) hpoint)
    (.cons (Work.step_memberName hname) (.cons (Work.step_qualifiedCall hqualifiers hopening)
      (hinner.snoc (hclose closing hclosing))))

/-- A percent sign. -/
theorem read_percent (he : (suffixed e).Read s ts) (ht : t.payload = .operator .percent) :
    (suffixed (.unary .percent e (e.span.cover t.span))).Read s (ts ++ [t]) := by
  intro pending levels last
  rcases he pending levels last with ⟨x, last', hx, hruns⟩
  exact ⟨.suffixed _, t.span, rfl, hruns.snoc (Work.step_percent hx ht)⟩

/-- A prefix operator. -/
theorem read_unary {op : Operator} (hop : op.isPrefix = true) (ht : t.payload = .operator op)
    (he : (level operandLevel e).Read s ts) :
    (level operandLevel (.unary op e (t.span.cover e.span))).Read s (t :: ts) := by
  intro pending levels last _
  rcases he (.unary op t.span :: pending) levels t.span (Nat.le_refl _)
    with ⟨pending', x, operand, last', hx, hruns, hsettle⟩
  refine ⟨pending', x, operand, last', hx, .cons (Work.step_unary hop ht) hruns, ?_⟩
  intro next hnext
  rw [hsettle next hnext, settle_unary]

/-- A binary operation: both operands at their floors. -/
theorem read_binary {op : Operator} {n : Nat} {g : Associativity}
    (hop : op.binding? = some (n, g)) (hl : (level (leftFloor n g) l).Read s ts)
    (ht : t.payload = .operator op) (hr : (level (rightFloor n g) r).Read s ts') :
    (level n (.binary op l r (l.span.cover r.span))).Read s (ts ++ t :: ts') := by
  intro pending levels last htakes
  rcases hl pending levels last (htakes.mono (le_leftFloor n g))
    with ⟨pending₁, x₁, operand₁, last₁, hx₁, hruns₁, hsettle₁⟩
  have hwait : settle (some n) pending₁ operand₁ = .ok (l, pending) := by
    rw [hsettle₁ (some n) (ends_leftFloor hop)]
    exact settle_of_takes (Operator.binding_lt hop) htakes l
  rcases hr (.binary op l :: pending) levels t.span (takes_binary l pending hop)
    with ⟨pending₂, x₂, operand₂, last₂, hx₂, hruns₂, hsettle₂⟩
  refine ⟨pending₂, x₂, operand₂, last₂, hx₂, ?_, ?_⟩
  · exact hruns₁.append (.cons (Work.step_binary hx₁ ht hop hwait) hruns₂)
  · intro next hnext
    rw [hsettle₂ next (hnext.mono (le_rightFloor n g)), settle_binary hop hnext]

/-- Reading an expression that is complete: all its operators have their operands. -/
theorem read_whole (he : (level 0 e).Read s ts) (levels : List Level) (last : Span) :
    ∃ pending x operand last', x.operand? = some operand ∧
      settle none pending operand = .ok (e, []) ∧
      Work.Runs s ⟨[], levels, .operand, last⟩ ts ⟨pending, levels, x, last'⟩ := by
  rcases he [] levels last trivial with ⟨pending, x, operand, last', hx, hruns, hsettle⟩
  exact ⟨pending, x, operand, last', hx, hsettle none (ends_none 0), hruns⟩

/-- An expression has a first token. -/
theorem read_ne_nil (he : (level 0 e).Read s ts) : ts ≠ [] := by
  rintro rfl
  rcases read_whole he [] default with ⟨pending, x, operand, last', hx, -, hruns⟩
  cases hruns
  simp [Expectation.operand?, Expectation.member?] at hx

/-- A chain of one clause. -/
theorem read_firstClause (he : (level 0 e).Read s ts) : (clauses [e]).Read s ts := by
  refine ⟨read_ne_nil he, ?_⟩
  intro level rest last _ hclauses _
  rcases read_whole he (level :: rest) last with ⟨pending, x, operand, last', hx, hsettle, hruns⟩
  refine ⟨[], e, pending, x, operand, last', rfl, hx, hsettle, ?_⟩
  have hlevel : { level with clauses := [] } = level := by rw [← hclauses]
  rw [hlevel]
  exact hruns

/-- One more clause of a chain. -/
theorem read_nextClause (hes : (clauses es).Read s ts) (ht : t.Chains)
    (he : (level 0 e).Read s ts') : (clauses (es ++ [e])).Read s (ts ++ t :: ts') := by
  refine ⟨by simp, ?_⟩
  intro level rest last hlevel hclauses hstart
  rcases hes.2 level rest last hlevel hclauses (hstart.of_append hes.1)
    with ⟨front, e₁, pending₁, x₁, operand₁, last₁, rfl, hx₁, hsettle₁, hruns₁⟩
  rcases read_whole he ({ level with clauses := front ++ [e₁] } :: rest) t.span
    with ⟨pending₂, x₂, operand₂, last₂, hx₂, hsettle₂, hruns₂⟩
  rcases List.exists_cons_of_ne_nil (read_ne_nil he) with ⟨t', rest', rfl⟩
  refine ⟨front ++ [e₁], e, pending₂, x₂, operand₂, last₂, rfl, hx₂, hsettle₂, ?_⟩
  refine hruns₁.append (.cons ?_ (hruns₂.congr_start fun _ h => Work.step_chainNext h))
  rw [Work.step_finish hx₁ ht (by simp) hsettle₁]
  exact Work.finishExpression_chaining hlevel ht

/-- The clauses of a chain from its start on. -/
theorem read_clauses (hes : (clauses es).Read s ts) {level : Level} (rest : List Level)
    (last : Span) {x : Expectation} (hlevel : level.Chains) (hx : x.StartsChain) :
    ∃ chainStart front e pending y operand last', StartsAt chainStart ts ∧ es = front ++ [e] ∧
      y.operand? = some operand ∧ settle none pending operand = .ok (e, []) ∧
      Work.Runs s ⟨[], level :: rest, x, last⟩ ts
        ⟨pending, { level with chainStart, clauses := front } :: rest, y, last'⟩ := by
  rcases List.exists_cons_of_ne_nil hes.1 with ⟨t, ts, rfl⟩
  have hstart : StartsAt t.span (t :: ts) := ⟨t, ts, rfl, rfl⟩
  rcases hes.2 { level with chainStart := t.span, clauses := [] } rest last hlevel rfl hstart
    with ⟨front, e, pending, y, operand, last', hes', hy, hsettle, hruns⟩
  exact ⟨t.span, front, e, pending, y, operand, last', hstart, hes', hy, hsettle,
    hruns.congr_start fun _ h => Work.step_chain hx h⟩

/-- The separators that end a chain are no chaining separators and open nothing. -/
theorem payload_of_ends (ht : t.Closes .parenthesis ∨ t.Lists) :
    ∃ sep, t.payload = .separator sep ∧ sep ≠ .chaining ∧ sep ≠ .opening .parenthesis ∧
      endsChain (some t) = true := by
  rcases ht with ht | ht
  · have hpayload : t.payload = .separator (.closing .parenthesis) := ht
    exact ⟨_, ht, by simp, by simp, by simp [endsChain, Look.separator?, hpayload]⟩
  · have hpayload : t.payload = .separator .list := ht
    exact ⟨_, ht, by simp, by simp, by simp [endsChain, Look.separator?, hpayload]⟩

/-- A chain. -/
theorem read_chain (hes : (clauses es).Read s ts) : (chain (chainTree es ts)).Read s ts := by
  intro level rest last x hlevel hx
  rcases read_clauses hes rest last hlevel hx
    with ⟨chainStart, front, e, pending, y, operand, last', hstart, rfl, hy, hsettle, hruns⟩
  refine ⟨_, chainStart, front ++ [e], last', ?_, hruns, ?_⟩
  · exact chainExpr_eq hstart fun t ht => hruns.last_eq ht
  · intro t ht
    rcases payload_of_ends ht with ⟨sep, hpayload, hchaining, hopening, -⟩
    rw [Work.step_finish hy hpayload hopening hsettle]
    exact Work.finishExpression_chain hlevel hpayload hchaining

/-- A chain with a separator behind its last clause. -/
theorem read_trailedChain (hes : (clauses es).Read s ts) (ht : t.Chains) :
    (chain (chainTree es (ts ++ [t]))).Read s (ts ++ [t]) := by
  intro level rest last x hlevel hx
  rcases read_clauses hes rest last hlevel hx
    with ⟨chainStart, front, e, pending, y, operand, last', hstart, rfl, hy, hsettle, hruns⟩
  have hseparator : Work.step s ⟨pending, { level with chainStart, clauses := front } :: rest, y,
      last'⟩ (some t) = .next ⟨[], { level with chainStart, clauses := front ++ [e] } :: rest,
        .chainNext, t.span⟩ := by
    rw [Work.step_finish hy ht (by simp) hsettle]
    exact Work.finishExpression_chaining hlevel ht
  refine ⟨_, chainStart, front ++ [e], t.span, ?_, hruns.snoc hseparator, ?_⟩
  · refine chainExpr_eq (hstart.append [t]) fun t' ht' => ?_
    obtain rfl : t = t' := by simpa using ht'
    rfl
  · intro t' ht'
    rcases payload_of_ends ht' with ⟨_, _, _, _, hends⟩
    exact Work.step_chainNext_end hends

/-- The first argument of a call. -/
theorem read_firstArgument (he : (chain e).Read s ts) : (arguments [e]).Read s ts := by
  intro level rest last function qualifiers start hbracket
  rcases he level rest last .callStart (.inr ⟨_, _, _, _, hbracket⟩) (.inr (.inl rfl))
    with ⟨w, chainStart, clauses, last', rfl, hruns, hends⟩
  have hbracket' : ({ level with chainStart, clauses } : Level).bracket =
      .call function [] qualifiers start := hbracket
  refine ⟨w, hruns, ?_, ?_⟩
  · intro t ht
    rw [hends t (.inl ht)]
    exact Work.finishChain_call hbracket' ht
  · intro _
    refine ⟨chainStart, clauses, fun t ht => ?_⟩
    rw [hends t (.inr ht)]
    exact Work.finishChain_argument hbracket' ht

/-- One more argument of a call. -/
theorem read_nextArgument (hes : (arguments es).Read s ts) (hne : es ≠ []) (ht : t.Lists)
    (he : (chain e).Read s ts') : (arguments (es ++ [e])).Read s (ts ++ t :: ts') := by
  intro level rest last function qualifiers start hbracket
  rcases hes level rest last function qualifiers start hbracket with ⟨w₁, hruns₁, -, hlist⟩
  rcases hlist hne with ⟨chainStart₁, clauses₁, hlist⟩
  obtain ⟨w₂, chainStart₂, clauses₂, last₂, rfl, hruns₂, hends⟩ :=
    he ⟨.call function es qualifiers start, level.opening, level.outer, chainStart₁, clauses₁⟩ rest
      t.span .chainStart (.inr ⟨_, _, _, _, rfl⟩) (.inr (.inr rfl))
  refine ⟨w₂, hruns₁.append (.cons (hlist t ht) hruns₂), ?_, ?_⟩
  · intro t' ht'
    rw [hends t' (.inl ht')]
    exact Work.finishChain_call rfl ht'
  · intro _
    refine ⟨chainStart₂, clauses₂, fun t' ht' => ?_⟩
    rw [hends t' (.inr ht')]
    exact Work.finishChain_argument rfl ht'

/-- The first element of a table. -/
theorem read_firstElement (he : (level 0 e).Read s ts) : (elements [e]).Read s ts := by
  intro level rest last hbracket
  rcases read_whole he (level :: rest) last with ⟨pending, x, operand, last', hx, hsettle, hruns⟩
  rcases List.exists_cons_of_ne_nil (read_ne_nil he) with ⟨t, ts, rfl⟩
  refine ⟨_, hruns.congr_start fun _ h => Work.step_elementStart h, ?_, ?_⟩
  · intro t ht
    rw [Work.step_finish hx ht (by simp) hsettle]
    exact Work.finishExpression_table hbracket ht
  · intro _ t ht
    rw [Work.step_finish hx ht (by simp) hsettle]
    exact Work.finishExpression_element hbracket ht

/-- One more element of a table. -/
theorem read_nextElement (hes : (elements es).Read s ts) (hne : es ≠ []) (ht : t.Lists)
    (he : (level 0 e).Read s ts') : (elements (es ++ [e])).Read s (ts ++ t :: ts') := by
  intro level rest last hbracket
  rcases hes level rest last hbracket with ⟨w, hruns₁, -, hlist⟩
  rcases read_whole he ({ level with bracket := .table es } :: rest) t.span
    with ⟨pending, x, operand, last', hx, hsettle, hruns₂⟩
  refine ⟨_, hruns₁.append (.cons (hlist hne t ht) hruns₂), ?_, ?_⟩
  · intro t' ht'
    rw [Work.step_finish hx ht' (by simp) hsettle]
    exact Work.finishExpression_table rfl ht'
  · intro _ t' ht'
    rw [Work.step_finish hx ht' (by simp) hsettle]
    exact Work.finishExpression_element rfl ht'

/-- A field of a record from its name on, behind the fields in front of it. -/
theorem read_field {fs : List Field} {colon : Token} {level : Level} (rest : List Level)
    (last : Span) {x : Expectation} {name' : String} {nameSpan : Span}
    (hx : x = .fieldStart ∨ x = .fieldName) (hbracket : level.bracket = .record fs name' nameSpan)
    (hname : t.payload = .identifier name quoted) (hcolon : colon.payload = .separator .colon)
    (he : (Phrase.level 0 e).Read s ts) :
    ∃ w, Work.Runs s ⟨[], level :: rest, x, last⟩ (t :: colon :: ts) w ∧
      (∀ closing : Token, closing.Closes .brace → w.step s (some closing) =
        .next ⟨level.outer, rest, .primary (.record (fs ++ [.mk name e (t.span.cover e.span)])
          (level.opening.span.cover closing.span)), closing.span⟩) ∧
      ∀ separator : Token, separator.Lists → w.step s (some separator) =
        .next ⟨[], ⟨.record (fs ++ [.mk name e (t.span.cover e.span)]) name t.span, level.opening,
          level.outer, level.chainStart, level.clauses⟩ :: rest, .fieldName, separator.span⟩ := by
  rcases read_whole he ({ level with bracket := .record fs name t.span } :: rest) colon.span
    with ⟨pending, y, operand, last', hy, hsettle, hruns⟩
  refine ⟨_, .cons (Work.step_fieldName hx hbracket hname)
    (.cons (Work.step_colon hcolon) hruns), ?_, ?_⟩
  · intro closing hclosing
    rw [Work.step_finish hy hclosing (by simp) hsettle]
    exact Work.finishExpression_record rfl hclosing
  · intro separator hseparator
    rw [Work.step_finish hy hseparator (by simp) hsettle]
    exact Work.finishExpression_field rfl hseparator

end Phrase

/-- The parser reads every phrase of the grammar. -/
theorem Derives.read {s : Setting} {φ : Phrase} {ts : List Token} (h : Derives φ ts) :
    φ.Read s ts := by
  induction h with
  | literal h => exact fun _ _ _ => ⟨.primary _, _, rfl, .single (Work.step_literal h)⟩
  | name h => exact fun _ _ _ => ⟨.named _ _ _, _, rfl, .single (Work.step_name h)⟩
  | global h => exact fun _ _ _ => ⟨.primary _, _, rfl, .single (Work.step_global h)⟩
  | field h => exact fun _ _ _ => ⟨.primary _, _, rfl, .single (Work.step_field h)⟩
  | call hname hopening _ hclosing ih => exact Phrase.read_call hname hopening ih hclosing
  | group hopening _ hclosing ih => exact Phrase.read_group hopening ih hclosing
  | record hopening _ hclosing ih => exact Phrase.read_record hopening ih hclosing
  | table hopening _ hclosing ih => exact Phrase.read_table hopening ih hclosing
  | bare _ ih => exact ih
  | access _ hliteral hop hseparator hname ih =>
      exact Phrase.read_access ih hliteral hop hseparator hname
  | qualifiedCall _ hqualifiers hpoint hname hopening _ hclosing ih ihArguments =>
      exact Phrase.read_qualifiedCall ih hqualifiers hpoint hname hopening ihArguments hclosing
  | unsuffixed _ ih =>
      intro pending levels last
      rcases ih pending levels last with ⟨x, last', hx, hruns⟩
      exact ⟨x, last', Expectation.operand_of_member hx, hruns⟩
  | percent _ ht ih => exact Phrase.read_percent ih ht
  | operand _ ih =>
      intro pending levels last _
      rcases ih pending levels last with ⟨x, last', hx, hruns⟩
      exact ⟨pending, x, _, last', hx, hruns, fun _ _ => rfl⟩
  | unary hop ht _ ih => exact Phrase.read_unary hop ht ih
  | looser _ ih =>
      intro pending levels last htakes
      rcases ih pending levels last (htakes.mono (Nat.le_succ _))
        with ⟨pending', x, operand, last', hx, hruns, hsettle⟩
      exact ⟨pending', x, operand, last', hx, hruns,
        fun next hnext => hsettle next (hnext.mono (Nat.le_succ _))⟩
  | leftGrouped hop _ ht _ ihl ihr => exact Phrase.read_binary hop ihl ht ihr
  | rightGrouped hop _ ht _ ihl ihr => exact Phrase.read_binary hop ihl ht ihr
  | ungrouped hop _ ht _ ihl ihr => exact Phrase.read_binary hop ihl ht ihr
  | firstClause _ ih => exact Phrase.read_firstClause ih
  | nextClause _ ht _ ihes ih => exact Phrase.read_nextClause ihes ht ih
  | chain _ ih => exact Phrase.read_chain ih
  | trailedChain _ ht ih => exact Phrase.read_trailedChain ih ht
  | noArguments =>
      intro level rest last function qualifiers start hbracket
      exact ⟨_, .nil, fun t ht => Work.step_callStart_close hbracket ht, fun hne => absurd rfl hne⟩
  | firstArgument _ ih => exact Phrase.read_firstArgument ih
  | nextArgument _ hne ht _ ihes ih => exact Phrase.read_nextArgument ihes hne ht ih
  | noElements =>
      intro level rest last hbracket
      exact ⟨_, .nil, fun t ht => Work.step_elementStart_close hbracket ht,
        fun hne => absurd rfl hne⟩
  | firstElement _ ih => exact Phrase.read_firstElement ih
  | nextElement _ hne ht _ ihes ih => exact Phrase.read_nextElement ihes hne ht ih
  | noFields =>
      intro level rest last name nameSpan hbracket
      exact ⟨_, .nil, fun t ht => Work.step_fieldStart_close hbracket ht,
        fun hne => absurd rfl hne⟩
  | firstField hname hcolon _ ih =>
      intro level rest last name' nameSpan hbracket
      rcases Phrase.read_field rest last (.inl rfl) hbracket hname hcolon ih
        with ⟨w, hruns, hclose, hlist⟩
      exact ⟨w, hruns, hclose, fun _ => ⟨_, _, hlist⟩⟩
  | @nextField fs _ _ _ separator _ _ _ _ _ hne hseparator hname hcolon _ ihfs ih =>
      intro level rest last name' nameSpan hbracket
      rcases ihfs level rest last name' nameSpan hbracket with ⟨w₁, hruns₁, -, hlist₁⟩
      rcases hlist₁ hne with ⟨name₁, nameSpan₁, hlist₁⟩
      have hbracket₁ : ({ level with bracket := .record fs name₁ nameSpan₁ } : Level).bracket =
          .record fs name₁ nameSpan₁ := rfl
      rcases Phrase.read_field rest separator.span (.inr rfl) hbracket₁ hname hcolon ih
        with ⟨w₂, hruns₂, hclose, hlist⟩
      exact ⟨w₂, hruns₁.append (.cons (hlist₁ _ hseparator) hruns₂), hclose,
        fun _ => ⟨_, _, hlist⟩⟩

/-- A whole clause is read from the start of a clause, and is complete in front of a chaining
separator and at the end of the formula. -/
theorem Derives.runs_clause {s : Setting} {e : Expr} {ts : List Token}
    (h : Derives (.level 0 e) ts) :
    ∃ w, Work.Runs s Work.start ts w ∧ w.step s none = .complete e ∧
      ∀ t : Token, t.Chains → w.step s (some t) = .complete e := by
  rcases Phrase.read_whole h.read [] default with ⟨pending, x, operand, last, hx, hsettle, hruns⟩
  exact ⟨_, hruns, Work.step_end hx hsettle, fun t ht => Work.step_chaining hx hsettle ht⟩

end FormulaLint
