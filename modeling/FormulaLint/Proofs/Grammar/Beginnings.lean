import FormulaLint.Proofs.Grammar.Completeness
import FormulaLint.Proofs.Grammar.Soundness
import FormulaLint.Proofs.Reading

/-!
# Beginnings of expressions

The parser never reads further than it has to: as long as a clause goes on, its tokens are the
beginning of some expression, because whatever is open can be closed again.  So the token at which a
clause ends is the first one that no expression has at its place.

Main results:

- Theorem {lit}`Work.Reads.begins`: the tokens of a clause in progress begin an expression.
- Theorem {lit}`Work.Runs.next_iff`: the parser goes on exactly with the beginning of an expression.
- Theorem {lit}`Work.Runs.abandoned_iff`: what is left of a clause that cannot go on.
-/

namespace FormulaLint

/-- Whether some expression begins with the given tokens. -/
def Begins (ts : List Token) : Prop :=
  ∃ more e, Derives (.level 0 e) (ts ++ more)

/-- The first tokens of a beginning are a beginning. -/
theorem Begins.of_append {ts more : List Token} (h : Begins (ts ++ more)) : Begins ts := by
  rcases h with ⟨rest, e, he⟩
  exact ⟨more ++ rest, e, by simpa using he⟩

/-- An expression begins with its tokens. -/
theorem Derives.begins {e : Expr} {ts : List Token} (h : Derives (.level 0 e) ts) : Begins ts :=
  ⟨[], e, by simpa using h⟩

/-- Whether a token is a binary operator. -/
def Token.Joins (t : Token) : Prop :=
  ∃ op level grouping, t.payload = .operator op ∧ op.binding? = some (level, grouping)

/-! ## Runs of the parser -/

namespace Work

variable {s : Setting} {w w' w'' : Work} {t : Token} {ts ts' front : List Token}

namespace Runs

/-- The tokens lead to one state only. -/
theorem unique (h : Runs s w ts w') (h' : Runs s w ts w'') : w' = w'' := by
  induction h with
  | nil =>
      cases h'
      rfl
  | cons hstep _ ih =>
      cases h' with
      | cons hstep' hrest' =>
          obtain rfl := Step.next.inj (hstep.symm.trans hstep')
          exact ih hrest'

/-- A run over two lists of tokens is one run after the other. -/
theorem of_append (h : Runs s w (ts ++ ts') w'') : ∃ w', Runs s w ts w' ∧ Runs s w' ts' w'' := by
  induction ts generalizing w with
  | nil => exact ⟨w, .nil, h⟩
  | cons t ts ih =>
      cases h with
      | cons hstep hrest =>
          rcases ih hrest with ⟨w', hfirst, hsecond⟩
          exact ⟨w', .cons hstep hfirst, hsecond⟩

/-- A run keeps to the grammar. -/
theorem reads (h : Runs s w ts w') (hreads : w.Reads front) : w'.Reads (front ++ ts) := by
  induction h generalizing front with
  | nil => simpa using hreads
  | cons hstep _ ih => simpa using ih (hreads.next hstep)

/-- A new clause reads the tokens of its run. -/
theorem start_reads (h : Runs s start ts w) : w.Reads ts := by
  simpa using h.reads Work.start_reads

/-- The tokens of a complete clause end it there and then. -/
theorem derives_iff (h : Runs s start ts w) {e : Expr} :
    Derives (.level 0 e) ts ↔ w.step s none = .complete e := by
  constructor
  · intro he
    rcases he.runs_clause (s := s) with ⟨w', hruns, hend, -⟩
    obtain rfl := h.unique hruns
    exact hend
  · intro hend
    have hjustified := step_justified s none h.start_reads
    rw [hend] at hjustified
    exact hjustified

end Runs

end Work

/-- An expression has one tree. -/
theorem Derives.unique {e e' : Expr} {ts : List Token} (h : Derives (.level 0 e) ts)
    (h' : Derives (.level 0 e') ts) : e = e' := by
  rcases h.runs_clause (s := ⟨.dotDecimal, default⟩) with ⟨w, hruns, hend, -⟩
  have hend' := hruns.derives_iff.mp h'
  exact Step.complete.inj (hend.symm.trans hend')

/-! ## Completing a clause in progress -/

namespace Work

variable {s : Setting} {w w' : Work} {ts : List Token} {pending : List Pending}
  {levels rest : List Level} {level : Level} {x : Expectation} {last : Span} {t : Token} {e : Expr}

/-- Behind an expression the delimiter around it may be closed. -/
theorem step_close (s : Setting) (hx : x.operand? = some e)
    (ht : t.Closes level.bracket.delimiter) : ∃ closed,
      Work.step s ⟨pending, level :: rest, x, last⟩ (some t) =
        .next ⟨level.outer, rest, .primary closed, t.span⟩ := by
  rcases settle_none_ok pending e with ⟨whole, hsettle⟩
  rw [step_finish hx ht (by simp) hsettle]
  cases hbracket : level.bracket with
  | group =>
      rw [hbracket] at ht
      rw [finishExpression_chain (Or.inl hbracket) ht (by simp)]
      exact ⟨_, finishChain_group (by exact hbracket) ht⟩
  | call function arguments qualifiers start =>
      rw [hbracket] at ht
      rw [finishExpression_chain (Or.inr ⟨_, _, _, _, hbracket⟩) ht (by simp)]
      exact ⟨_, finishChain_call (by exact hbracket) ht⟩
  | record fields name nameSpan =>
      rw [hbracket] at ht
      exact ⟨_, finishExpression_record hbracket ht⟩
  | table elements =>
      rw [hbracket] at ht
      exact ⟨_, finishExpression_table hbracket ht⟩

/-- What the parser has read begins an expression if it does so with one more token that fits. -/
theorem Reads.begins_of_step (hstep : w.step s (some t) = .next w') (h : w.Reads ts)
    (hnext : w'.Reads (ts ++ [t]) → Begins (ts ++ [t])) : Begins ts :=
  (hnext (h.next hstep)).of_append

/-- Behind an operand all delimiters may be closed. -/
theorem Reads.begins_of_operand (s : Setting) (hx : x.operand? = some e)
    (h : Reads ⟨pending, levels, x, last⟩ ts) : Begins ts := by
  induction levels generalizing pending x last e ts with
  | nil =>
      rcases settle_none_ok pending e with ⟨whole, hsettle⟩
      have hjustified := step_justified s none h
      rw [step_end hx hsettle] at hjustified
      exact Derives.begins hjustified
  | cons level rest ih =>
      let closing : Token := ⟨.separator (.closing level.bracket.delimiter), "", default⟩
      rcases step_close (t := closing) s hx rfl with ⟨closed, hstep⟩
      exact h.begins_of_step hstep fun hnext => ih (x := .primary closed) rfl hnext

/-- An operand where one is expected. -/
def someOperand : Token := ⟨.logical true, "true", default⟩

/-- A name where one is expected. -/
def someName : Token := ⟨.identifier "x" false, "x", default⟩

/-- Where an operand may stand, any other operand may stand. -/
theorem Reads.begins_of_expected (s : Setting) (h : w.Reads ts)
    (hstep : ∀ w', Work.step s ⟨pending, levels, .operand, last⟩ (some someOperand) = .next w' →
      w.step s (some someOperand) = .next w') : Begins ts := by
  refine h.begins_of_step (hstep _ (step_literal (l := .logical true) rfl)) fun hnext => ?_
  exact hnext.begins_of_operand s rfl

/-- Behind the name of a field its colon and its value may follow. -/
theorem Reads.begins_of_colon (s : Setting) (h : Reads ⟨pending, level :: rest, .colon, last⟩ ts) :
    Begins ts := by
  let colon : Token := ⟨.separator .colon, ":", default⟩
  refine h.begins_of_step (step_colon (s := s) (t := colon) rfl) fun hvalue => ?_
  exact hvalue.begins_of_expected s fun _ hstep => hstep

/-- Where a field is expected, any field may stand. -/
theorem Reads.begins_of_field {fields : List Field} {name : String} {nameSpan : Span}
    (s : Setting) (h : Reads ⟨pending, level :: rest, x, last⟩ ts) (hx : x = .fieldStart ∨ x = .fieldName)
    (hbracket : level.bracket = .record fields name nameSpan) : Begins ts :=
  h.begins_of_step (step_fieldName (s := s) (t := someName) hx hbracket rfl) fun hnext =>
    hnext.begins_of_colon s

/-- The tokens of a clause in progress begin an expression. -/
theorem Reads.begins (s : Setting) (h : w.Reads ts) : Begins ts := by
  rcases w with ⟨pending, levels, x, last⟩
  have hreads := h.2
  cases x with
  | operand => exact h.begins_of_expected s fun _ hstep => hstep
  | groupStart | chainStart =>
      rcases hreads with ⟨-, level, rest, front, rfl, -⟩
      exact h.begins_of_expected s fun _ => step_chain (by simp [Expectation.StartsChain])
  | callStart =>
      rcases hreads with ⟨-, level, rest, front, name, qualifiers, start, rfl, -⟩
      exact h.begins_of_expected s fun _ => step_chain (by simp [Expectation.StartsChain])
  | chainNext =>
      rcases hreads with ⟨-, level, rest, rfl, -⟩
      exact h.begins_of_expected s fun _ => step_chainNext
  | elementStart =>
      rcases hreads with ⟨-, level, rest, rfl, -⟩
      exact h.begins_of_expected s fun _ => step_elementStart
  | fieldStart =>
      rcases hreads with ⟨-, level, rest, name, span, rfl, hbracket, -⟩
      exact h.begins_of_field s (Or.inl rfl) hbracket
  | fieldName =>
      rcases hreads with ⟨-, level, rest, fields, name, span, front, rfl, hbracket, -⟩
      exact h.begins_of_field s (Or.inr rfl) hbracket
  | colon =>
      rcases hreads with ⟨-, level, rest, fields, name, t, quoted, front, rfl, -⟩
      exact h.begins_of_colon s
  | memberName base op span =>
      refine h.begins_of_step (step_memberName (s := s) (t := someName) rfl) fun hnext => ?_
      exact hnext.begins_of_operand s rfl
  | named _ _ _ | primary _ | memberRead _ _ _ _ _ | suffixed _ => exact h.begins_of_operand s rfl

/-! ## Where a clause ends -/

/-- A run begins an expression. -/
theorem Runs.begins (h : Runs s start ts w) : Begins ts :=
  h.start_reads.begins s

/-- The parser goes on with a token exactly if some expression does. -/
theorem Runs.next_iff (h : Runs s start ts w) :
    (∃ w', w.step s (some t) = .next w') ↔ Begins (ts ++ [t]) := by
  constructor
  · rintro ⟨w', hstep⟩
    exact (h.snoc hstep).begins
  · rintro ⟨more, e, he⟩
    rcases he.runs_clause (s := s) with ⟨_, hruns, -⟩
    rw [List.append_assoc] at hruns
    rcases hruns.of_append with ⟨w', hfirst, hrest⟩
    obtain rfl := h.unique hfirst
    cases hrest with
    | cons hstep _ => exact ⟨_, hstep⟩

end Work

/-! ## What is left of an abandoned clause -/

/-- Whether a step leaves no expression when it abandons the clause. -/
def Step.LeavesNothing (step : Step) : Prop :=
  ∀ e diagnostic depth, step ≠ .abandon (some e) diagnostic depth

/-- An expression is left only behind an operand that stands outside all delimiters. -/
theorem Step.Outcome.behind_operand {s s' : Setting} {w : Work} {look : Look} {e : Expr}
    {diagnostic : Option Diagnostic} {depth : Nat} {step' : Step}
    (h : Step.Outcome s s' w look (.abandon (some e) diagnostic depth) step') :
    w.levels = [] ∧ w.expect.operand? ≠ none := by
  cases h with
  | abandon _ _ _ _ _ hclause => exact hclause (by simp)

namespace Work

variable {s : Setting} {w : Work} {ts : List Token} {pending : List Pending}
  {levels rest : List Level} {level : Level} {x : Expectation} {last : Span} {t : Token}
  {e operand : Expr} {look : Look}

/-- Behind an operand the clause goes on, or the operand ends. -/
theorem step_operand_cases (s : Setting) (look : Look) (hx : x.operand? = some operand) :
    (∃ w', Work.step s ⟨pending, levels, x, last⟩ look = .next w') ∨
      Work.step s ⟨pending, levels, x, last⟩ look =
        finishOperand s ⟨pending, levels, x, last⟩ operand look := by
  have hsuffix : ∀ (w : Work) (e : Expr), (∃ w', stepSuffix s w e look = .next w') ∨
      stepSuffix s w e look = finishOperand s w e look := by
    intro w e
    unfold stepSuffix
    split
    · exact Or.inl ⟨_, rfl⟩
    · exact Or.inr rfl
  have hmember : ∀ (w : Work) (e : Expr), (∃ w', stepMember s w e look = .next w') ∨
      stepMember s w e look = finishOperand s w e look := by
    intro w e
    unfold stepMember
    split
    · split
      · exact hsuffix w e
      · exact Or.inl ⟨_, rfl⟩
    · split
      · exact hsuffix w e
      · exact Or.inl ⟨_, rfl⟩
    · exact hsuffix w e
  cases x with
  | named name quoted span =>
      obtain rfl : reference name quoted span = operand := Option.some.inj hx
      simp only [step]
      split
      · exact Or.inl ⟨_, rfl⟩
      · exact hmember _ _
  | primary e =>
      obtain rfl : e = operand := Option.some.inj hx
      exact hmember _ _
  | memberRead base op span name nameSpan =>
      obtain rfl : accessMember base ⟨op, name, span.cover nameSpan⟩ nameSpan = operand :=
        Option.some.inj hx
      simp only [step]
      split
      · split
        · exact Or.inl ⟨_, rfl⟩
        · exact hmember _ _
      · exact hmember _ _
  | suffixed e =>
      obtain rfl : e = operand := Option.some.inj hx
      exact hsuffix _ _
  | _ => simp [Expectation.operand?, Expectation.member?] at hx

/-- In front of a binary operator nothing is left of an operand that it cannot follow. -/
theorem finishOperand_of_joins (ht : t.Joins) :
    (finishOperand s w operand (some t)).LeavesNothing := by
  rcases ht with ⟨op, n, g, hpayload, hop⟩
  intro e diagnostic depth
  simp only [finishOperand, Look.operator?, hpayload, hop]
  split <;> simp

/-- In front of anything else all waiting operators get their operand. -/
theorem finishOperand_of_not_joins {whole : Expr} (hlook : ∀ t, look = some t → ¬ t.Joins)
    (hsettle : settle none w.pending operand = .ok (whole, [])) :
    finishOperand s w operand look =
      finishExpression s { w with pending := [] } whole look := by
  have hall : finishOperand.finishAll s w operand look =
      finishExpression s { w with pending := [] } whole look := by
    simp only [finishOperand.finishAll, hsettle]
  unfold finishOperand
  split
  · rename_i t op hop
    split
    · rename_i level grouping hbinding
      exact absurd ⟨op, level, grouping, payload_of_operator hop, hbinding⟩ (hlook t rfl)
    · exact hall
  · exact hall

/-- A clause that is abandoned behind an expression was complete in front of the token. -/
theorem step_abandon_some {diagnostic : Option Diagnostic} {depth : Nat}
    (h : Work.step s w look = .abandon (some e) diagnostic depth) :
    w.step s none = .complete e ∧ ∀ t, look = some t → ¬ t.Joins := by
  rcases w with ⟨pending, levels, x, last⟩
  have houtcome := step_outcome s s ⟨pending, levels, x, last⟩ look
  rw [h] at houtcome
  obtain ⟨rfl, hoperand⟩ : levels = [] ∧ x.operand? ≠ none := houtcome.behind_operand
  obtain ⟨operand, hx⟩ := Option.ne_none_iff_exists'.mp hoperand
  rcases step_operand_cases s look hx with ⟨w', hnext⟩ | hfinish
  · rw [hnext] at h
    simp at h
  · rw [hfinish] at h
    have hlook : ∀ t, look = some t → ¬ t.Joins := by
      rintro t rfl ht
      exact finishOperand_of_joins ht e diagnostic depth h
    rcases settle_none_ok pending operand with ⟨whole, hsettle⟩
    rw [finishOperand_of_not_joins hlook hsettle] at h
    have hwhole : whole = e := by
      simp only [finishExpression] at h
      split at h
      · simp at h
      · simp at h
      · exact Option.some.inj (Step.abandon.inj h).1
    subst hwhole
    exact ⟨step_end hx hsettle, hlook⟩

/-- What is left of a clause that cannot go on: the expression that it is so far, if it is one,
unless the token behind is a binary operator. -/
theorem Runs.abandoned_iff {clause : Option Expr} {diagnostic : Option Diagnostic} {depth : Nat}
    (h : Runs s start ts w) (hstep : w.step s (some t) = .abandon clause diagnostic depth)
    (e : Expr) : clause = some e ↔ Derives (.level 0 e) ts ∧ ¬ t.Joins := by
  constructor
  · rintro rfl
    rcases step_abandon_some hstep with ⟨hend, hlook⟩
    exact ⟨h.derives_iff.mpr hend, hlook t rfl⟩
  · rintro ⟨he, ht⟩
    -- behind an expression the parser stands at the end of an operand
    rcases Phrase.read_whole (s := s) he.read [] default
      with ⟨pending, x, operand, last, hx, hsettle, hruns⟩
    obtain rfl := h.unique hruns
    have hlook : ∀ t', some t = some t' → ¬ t'.Joins := fun t' ht' => Option.some.inj ht' ▸ ht
    rcases step_operand_cases s (some t) hx with ⟨w', hnext⟩ | hfinish
    · rw [hnext] at hstep
      simp at hstep
    · rw [hfinish, finishOperand_of_not_joins hlook hsettle] at hstep
      simp only [finishExpression] at hstep
      split at hstep
      · simp at hstep
      · simp at hstep
      · exact (Step.abandon.inj hstep).1.symm

/-- At the end of a formula nothing is left of a clause that is no expression. -/
theorem Runs.abandoned_at_end {clause : Option Expr} {diagnostic : Option Diagnostic} {depth : Nat}
    (h : Runs s start ts w) (hstep : w.step s none = .abandon clause diagnostic depth) (e : Expr) :
    clause = some e ↔ Derives (.level 0 e) ts := by
  rw [h.derives_iff]
  constructor
  · rintro rfl
    exact (step_abandon_some hstep).1
  · intro hend
    rw [hend] at hstep
    simp at hstep

end Work

end FormulaLint
