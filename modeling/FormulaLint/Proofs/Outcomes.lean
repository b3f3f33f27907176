import FormulaLint.Proofs.Grammar.Steps

/-!
# What one step can do

The parser keeps one level for every delimiter that is open.  A step takes up a token, which opens a
delimiter, closes the innermost one or leaves them alone, just as the token says by itself; or it
ends the clause outside all delimiters; or it abandons the clause inside all that are open, with at
most one diagnostic, about what the parser looks at.  The formula as a whole matters for the wording
of that diagnostic only.

Main results:

- Theorem {lit}`Work.step_outcome`: everything that a step can do, in two formulas at once.
- Theorem {lit}`Work.step_tracks`: what a step does to the open delimiters.
-/

namespace FormulaLint

/-- The opening tokens of the delimiters that are open in a clause, from the inside out. -/
def Work.openings (w : Work) : List Token :=
  w.levels.map Level.opening

/-- What a token does to the delimiters that are open. -/
def Token.Nests (t : Token) (before after : List Token) : Prop :=
  match t.payload with
  | .separator (.opening _) => after = t :: before
  | .separator (.closing _) => ∃ opening, before = opening :: after
  | _ => after = before

/-- What a step may do when the parser looks at a token or the end: a token that is taken up
counts for the open delimiters, a clause ends outside all delimiters in front of a chaining
separator or the end, and a clause is abandoned inside all that were open. -/
def Step.Tracks (w : Work) (look : Look) : Step → Prop
  | .next w' => ∃ t, look = some t ∧ w'.last = t.span ∧ t.Nests w.openings w'.openings
  | .complete _ => w.levels = [] ∧ ∀ t, look = some t → t.payload = .separator .chaining
  | .abandon _ _ depth => depth = w.depth
  | .overlong digits => ∃ t text, look = some t ∧ t.payload = .number text ∧
      numberValue text = .error digits

/-- What a step can do in a formula, and the same step in another formula.  A clause that is
abandoned leaves an expression only behind an operand that stands outside all delimiters. -/
inductive Step.Outcome (s s' : Setting) (w : Work) (look : Look) : Step → Step → Prop where
  | taken {t : Token} {w' : Work} (hlook : look = some t) (hlast : w'.last = t.span)
      (hnests : t.Nests w.openings w'.openings) : Outcome s s' w look (.next w') (.next w')
  | complete (e : Expr) (hlevels : w.levels = [])
      (hend : ∀ t, look = some t → t.payload = .separator .chaining) :
      Outcome s s' w look (.complete e) (.complete e)
  | abandon (clause : Option Expr) (code : DiagnosticCode) (message message' : String)
      (hcode : code.category = .grammatical)
      (hclause : clause ≠ none → w.levels = [] ∧ w.expect.operand? ≠ none) :
      Outcome s s' w look (.abandon clause (look.diagnostic? s code message) w.depth)
        (.abandon clause (look.diagnostic? s' code message') w.depth)
  | overlong {t : Token} {text : String} {digits : Nat} (hlook : look = some t)
      (hpayload : t.payload = .number text) (hvalue : numberValue text = .error digits) :
      Outcome s s' w look (.overlong digits) (.overlong digits)

namespace Work

variable {s s' : Setting} {w : Work} {level : Level} {rest : List Level} {look : Look}

/-- The number of levels is the number of open delimiters. -/
theorem length_openings (w : Work) : w.openings.length = w.depth := by
  simp [openings, depth]

/-- A token that is no delimiter leaves the open delimiters alone. -/
theorem nests_self {t : Token} {openings : List Token}
    (hopening : ∀ d, t.payload ≠ .separator (.opening d))
    (hclosing : ∀ d, t.payload ≠ .separator (.closing d)) : t.Nests openings openings := by
  unfold Token.Nests
  split
  · rename_i d heq
    exact absurd heq (hopening d)
  · rename_i d heq
    exact absurd heq (hclosing d)
  · rfl

/-- The payload of a token at whose separator the parser looks. -/
theorem payload_of_separator {t : Token} {sep : Separator}
    (h : Look.separator? (some t) = some sep) : t.payload = .separator sep := by
  simp only [Look.separator?] at h
  split at h
  · rename_i sep' hpayload
    rw [hpayload, Option.some.inj h]
  · simp at h

/-- The payload of a token at whose operator the parser looks. -/
theorem payload_of_operator {t : Token} {op : Operator}
    (h : Look.operator? (some t) = some op) : t.payload = .operator op := by
  simp only [Look.operator?] at h
  split at h
  · rename_i op' hpayload
    rw [hpayload, Option.some.inj h]
  · simp at h

/-- The payload of a token at whose name the parser looks. -/
theorem payload_of_identifier {look : Look} {t : Token} {name : String}
    (h : look.identifier? = some (t, name)) :
    look = some t ∧ ∃ quoted, t.payload = .identifier name quoted := by
  unfold Look.identifier? at h
  split at h
  · split at h
    · rename_i t' name' quoted hpayload
      rcases Prod.mk.inj (Option.some.inj h) with ⟨rfl, rfl⟩
      exact ⟨rfl, quoted, hpayload⟩
    · simp at h
  · simp at h

/-- The payload of a token that opens a call. -/
theorem payload_of_opensCall {look : Look} {t : Token} (h : opensCall? look = some t) :
    look = some t ∧ t.payload = .separator (.opening .parenthesis) := by
  unfold opensCall? at h
  split at h
  · rename_i t' hlook
    rcases Option.some.inj h with rfl
    exact ⟨rfl, payload_of_separator hlook⟩
  · simp at h

/-! ## The parts of a step -/

/-- Taking up a token that is no delimiter, with the same levels. -/
theorem outcome_next {t : Token} {w' : Work} (hlast : w'.last = t.span)
    (hlevels : w'.openings = w.openings) (hopening : ∀ d, t.payload ≠ .separator (.opening d))
    (hclosing : ∀ d, t.payload ≠ .separator (.closing d)) :
    Step.Outcome s s' w (some t) (.next w') (.next w') := by
  refine .taken rfl hlast ?_
  rw [hlevels]
  exact nests_self hopening hclosing

/-- Opening a delimiter. -/
theorem outcome_openBracket {t : Token} {d : Delimiter} (bracket : Bracket) (expect : Expectation)
    (ht : t.payload = .separator (.opening d)) :
    Step.Outcome s s' w (some t) (.next (w.openBracket t bracket expect))
      (.next (w.openBracket t bracket expect)) :=
  .taken rfl rfl (by simp [Token.Nests, ht, openings, openBracket])

/-- Abandoning a clause of which nothing is left. -/
theorem outcome_abandon {code : DiagnosticCode} (message message' : String)
    (hcode : code.category = .grammatical) :
    Step.Outcome s s' w look (.abandon none (look.diagnostic? s code message) w.depth)
      (.abandon none (look.diagnostic? s' code message') w.depth) :=
  .abandon none code message message' hcode fun hne => absurd rfl hne

/-- Of the clause in progress, an outcome looks at the opening tokens of the levels and at what was
expected. -/
theorem outcome_congr {w₁ w₂ : Work} {step step' : Step}
    (h : Step.Outcome s s' w₁ look step step') (hopenings : w₁.openings = w₂.openings)
    (hexpect : w₁.expect = w₂.expect) : Step.Outcome s s' w₂ look step step' := by
  have hdepth : w₁.depth = w₂.depth := by
    rw [← length_openings, hopenings, length_openings]
  have hlevels : w₁.levels = [] → w₂.levels = [] := by
    intro hnil
    simpa [openings, hnil] using hopenings.symm
  cases h with
  | taken hlook hlast hnests => exact .taken hlook hlast (hopenings ▸ hnests)
  | complete e hnil hend => exact .complete e (hlevels hnil) hend
  | abandon clause code message message' hcode hclause =>
      rw [hdepth]
      refine .abandon clause code message message' hcode fun hne => ?_
      rw [← hexpect]
      exact ⟨hlevels (hclause hne).1, (hclause hne).2⟩
  | overlong hlook hpayload hvalue => exact .overlong hlook hpayload hvalue

/-- Reading the start of an operand. -/
theorem startOperand_outcome (w : Work) (look : Look) :
    Step.Outcome s s' w look (startOperand s w look) (startOperand s' w look) := by
  cases look with
  | none => exact outcome_abandon _ _ rfl
  | some t =>
      cases hpayload : t.payload with
      | operator op =>
          simp only [startOperand, hpayload]
          split
          · exact outcome_next rfl rfl (by simp [hpayload]) (by simp [hpayload])
          · exact outcome_abandon _ _ rfl
      | number text =>
          simp only [startOperand, hpayload]
          split
          · exact outcome_next rfl rfl (by simp [hpayload]) (by simp [hpayload])
          · rename_i digits hdigits
            exact .overlong rfl hpayload hdigits
      | logical _ | text _ | identifier _ _ | global _ | field _ _ =>
          simp only [startOperand, hpayload]
          exact outcome_next rfl rfl (by simp [hpayload]) (by simp [hpayload])
      | separator sep =>
          cases sep with
          | opening d =>
              cases d <;> simp only [startOperand, hpayload] <;>
                exact outcome_openBracket _ _ hpayload
          | closing _ | colon | list | chaining =>
              simp only [startOperand, hpayload]
              exact outcome_abandon _ _ rfl
      | error _ =>
          simp only [startOperand, hpayload]
          exact outcome_abandon _ _ rfl

/-- Reading the start of a chain. -/
theorem startChain_outcome (w : Work) (look : Look) :
    Step.Outcome s s' w look (startChain s w look) (startChain s' w look) := by
  rcases w with ⟨pending, levels, x, last⟩
  cases look with
  | none => cases levels <;> exact outcome_abandon _ _ rfl
  | some t => cases levels <;> exact outcome_congr (startOperand_outcome _ (some t)) rfl rfl

/-- Closing a level. -/
theorem closeLevel_outcome (pending : List Pending) (x : Expectation) (last : Span)
    (build : Span → Expr) :
    Step.Outcome s s' ⟨pending, level :: rest, x, last⟩ look (closeLevel s level rest look build)
      (closeLevel s' level rest look build) := by
  unfold closeLevel closeLevel.unclosed
  dsimp only
  split
  · rename_i d t hlook
    split
    · have hpayload := payload_of_separator hlook
      exact .taken rfl rfl (by simp [Token.Nests, hpayload, openings])
    · exact outcome_abandon _ _ rfl
  all_goals exact outcome_abandon _ _ rfl

/-- Going on behind a list separator inside the same delimiter. -/
theorem nextPart_outcome {t : Token} (pending : List Pending) (x : Expectation) (last : Span)
    (bracket : Bracket) (expect : Expectation) (hlook : Look.separator? (some t) = some .list) :
    Step.Outcome s s' ⟨pending, level :: rest, x, last⟩ (some t)
      (nextPart level rest t bracket expect) (nextPart level rest t bracket expect) := by
  have hpayload := payload_of_separator hlook
  exact outcome_next rfl rfl (by simp [hpayload]) (by simp [hpayload])

/-- A chain has ended. -/
theorem finishChain_outcome (pending : List Pending) (x : Expectation) (last last' : Span) :
    Step.Outcome s s' ⟨pending, level :: rest, x, last'⟩ look (finishChain s level rest last look)
      (finishChain s' level rest last look) := by
  unfold finishChain
  dsimp only
  split
  · split
    · rename_i hlook
      exact nextPart_outcome pending x last' _ _ hlook
    · exact closeLevel_outcome pending x last' _
  all_goals exact closeLevel_outcome pending x last' _

/-- An expression has ended behind an operand. -/
theorem finishExpression_outcome (w : Work) (e : Expr) (look : Look)
    (hx : w.expect.operand? ≠ none) :
    Step.Outcome s s' w look (finishExpression s w e look) (finishExpression s' w e look) := by
  rcases w with ⟨pending, levels, x, last⟩
  unfold finishExpression
  cases levels with
  | nil =>
      dsimp only
      split
      · rename_i hlook
        refine .complete e rfl fun t ht => ?_
        subst ht
        exact payload_of_separator hlook
      · exact .complete e rfl fun t ht => by simp at ht
      · unfold unexpected?
        split <;> exact .abandon _ _ _ _ rfl fun _ => ⟨rfl, hx⟩
  | cons level rest =>
      -- adding the clause to its level leaves the opening tokens alone
      have hnext : ∀ (clauses : List Expr) (t : Token), look = some t →
          look.separator? = some .chaining →
          Step.Outcome s s' ⟨pending, level :: rest, x, last⟩ look
            (.next ⟨[], { level with clauses } :: rest, .chainNext, t.span⟩)
            (.next ⟨[], { level with clauses } :: rest, .chainNext, t.span⟩) := by
        intro clauses t hlook hseparator
        subst hlook
        have hpayload := payload_of_separator hseparator
        exact outcome_next rfl rfl (by simp [hpayload]) (by simp [hpayload])
      have hend : ∀ clauses : List Expr,
          Step.Outcome s s' ⟨pending, level :: rest, x, last⟩ look
            (finishChain s { level with clauses } rest last look)
            (finishChain s' { level with clauses } rest last look) :=
        fun clauses => outcome_congr (finishChain_outcome pending x last last) rfl rfl
      dsimp only
      split
      · split
        · rename_i hseparator
          exact hnext _ _ rfl hseparator
        · exact hend _
      · split
        · rename_i hseparator
          exact hnext _ _ rfl hseparator
        · exact hend _
      · split
        · rename_i hlook
          exact nextPart_outcome pending x last _ _ hlook
        · exact closeLevel_outcome pending x last _
      · split
        · rename_i hlook
          exact nextPart_outcome pending x last _ _ hlook
        · exact closeLevel_outcome pending x last _

/-- An operand has ended. -/
theorem finishOperand_outcome (w : Work) (e : Expr) (look : Look)
    (hx : w.expect.operand? ≠ none) :
    Step.Outcome s s' w look (finishOperand s w e look) (finishOperand s' w e look) := by
  have hall : Step.Outcome s s' w look (finishOperand.finishAll s w e look)
      (finishOperand.finishAll s' w e look) := by
    rcases settle_none_ok w.pending e with ⟨whole, hsettle⟩
    simp only [finishOperand.finishAll, hsettle]
    exact outcome_congr (finishExpression_outcome { w with pending := [] } whole look hx) rfl rfl
  unfold finishOperand
  split
  · rename_i t op hlook
    have hpayload := payload_of_operator hlook
    split
    · split
      · exact outcome_next rfl rfl (by simp [hpayload]) (by simp [hpayload])
      · exact outcome_abandon _ _ rfl
    · exact hall
  · exact hall

/-- Behind an operand a percent sign may follow. -/
theorem stepSuffix_outcome (w : Work) (e : Expr) (look : Look) (hx : w.expect.operand? ≠ none) :
    Step.Outcome s s' w look (stepSuffix s w e look) (stepSuffix s' w e look) := by
  unfold stepSuffix
  split
  · rename_i t hlook
    have hpayload := payload_of_operator hlook
    exact outcome_next rfl rfl (by simp [hpayload]) (by simp [hpayload])
  · exact finishOperand_outcome w e _ hx

/-- Behind an expression a member may follow. -/
theorem stepMember_outcome (w : Work) (e : Expr) (look : Look) (hx : w.expect.operand? ≠ none) :
    Step.Outcome s s' w look (stepMember s w e look) (stepMember s' w e look) := by
  have haccess : ∀ (t : Token) (op : Operator), Look.operator? (some t) = some op →
      Step.Outcome s s' w (some t)
        (if e.isLiteral then stepSuffix s w e (some t)
          else .next (w.advance t (.memberName e op t.span)))
        (if e.isLiteral then stepSuffix s' w e (some t)
          else .next (w.advance t (.memberName e op t.span))) := by
    intro t op hlook
    have hpayload := payload_of_operator hlook
    split
    · exact stepSuffix_outcome w e (some t) hx
    · exact outcome_next rfl rfl (by simp [hpayload]) (by simp [hpayload])
  unfold stepMember
  split
  · rename_i t hlook
    rw [hlook]
    exact haccess t _ hlook
  · rename_i t hlook
    rw [hlook]
    exact haccess t _ hlook
  · exact stepSuffix_outcome w e _ hx

/-- The name of a field has to come. -/
theorem fieldName_outcome (pending : List Pending) (x : Expectation) (last : Span) (look : Look) :
    Step.Outcome s s' ⟨pending, level :: rest, x, last⟩ look
      (step.fieldName s ⟨pending, level :: rest, x, last⟩ look level rest)
      (step.fieldName s' ⟨pending, level :: rest, x, last⟩ look level rest) := by
  unfold step.fieldName
  split
  · rename_i t name _ _ _ hlook _
    rcases payload_of_identifier hlook with ⟨rfl, quoted, hpayload⟩
    exact outcome_next rfl rfl (by simp [hpayload]) (by simp [hpayload])
  · exact outcome_abandon _ _ rfl

/-! ## The whole step -/

/-- Everything that a step can do. -/
theorem step_outcome (s s' : Setting) (w : Work) (look : Look) :
    Step.Outcome s s' w look (w.step s look) (w.step s' look) := by
  rcases w with ⟨pending, levels, x, last⟩
  cases x with
  | operand => exact startOperand_outcome _ look
  | chainStart => exact startChain_outcome _ look
  | groupStart =>
      simp only [step]
      split
      · exact outcome_abandon _ _ rfl
      · exact startChain_outcome _ look
  | callStart =>
      cases levels with
      | nil => exact startOperand_outcome _ look
      | cons level rest =>
          simp only [step]
          split
          · exact closeLevel_outcome pending _ last _
          · exact startChain_outcome _ look
  | chainNext =>
      cases levels with
      | nil => exact startOperand_outcome _ look
      | cons level rest =>
          simp only [step]
          split
          · exact finishChain_outcome pending _ last last
          · exact startOperand_outcome _ look
  | elementStart =>
      cases levels with
      | nil => exact startOperand_outcome _ look
      | cons level rest =>
          simp only [step]
          split
          · exact closeLevel_outcome pending _ last _
          · exact startOperand_outcome _ look
  | fieldStart =>
      cases levels with
      | nil => exact startOperand_outcome _ look
      | cons level rest =>
          simp only [step]
          split
          · exact closeLevel_outcome pending _ last _
          · exact fieldName_outcome pending _ last look
  | fieldName =>
      cases levels with
      | nil => exact startOperand_outcome _ look
      | cons level rest => exact fieldName_outcome pending _ last look
  | colon =>
      cases levels with
      | nil => exact startOperand_outcome _ look
      | cons level rest =>
          simp only [step]
          split
          · rename_i hlook
            have hpayload := payload_of_separator hlook
            exact outcome_next rfl rfl (by simp [hpayload]) (by simp [hpayload])
          · exact outcome_abandon _ _ rfl
          · exact startOperand_outcome _ _
  | named name quoted span =>
      simp only [step]
      split
      · rename_i t hcall
        rcases payload_of_opensCall hcall with ⟨rfl, hpayload⟩
        exact outcome_openBracket _ _ hpayload
      · exact stepMember_outcome _ _ look (by simp [Expectation.operand?, Expectation.member?])
  | primary e =>
      exact stepMember_outcome _ e look (by simp [Expectation.operand?, Expectation.member?])
  | memberName base op span =>
      simp only [step]
      split
      · rename_i t name hlook
        rcases payload_of_identifier hlook with ⟨rfl, quoted, hpayload⟩
        exact outcome_next rfl rfl (by simp [hpayload]) (by simp [hpayload])
      · exact outcome_abandon _ _ rfl
  | memberRead base op span name nameSpan =>
      have hx : (Expectation.memberRead base op span name nameSpan).operand? ≠ none := by
        simp [Expectation.operand?, Expectation.member?]
      simp only [step]
      split
      · rename_i t qualifiers hcall _
        split
        · rcases payload_of_opensCall hcall with ⟨rfl, hpayload⟩
          exact outcome_openBracket _ _ hpayload
        · exact stepMember_outcome _ _ look hx
      · exact stepMember_outcome _ _ look hx
  | suffixed e => exact stepSuffix_outcome _ e look (by simp [Expectation.operand?])

end Work

/-- What an outcome means for the open delimiters. -/
theorem Step.Outcome.tracks {s s' : Setting} {w : Work} {look : Look} {step step' : Step}
    (h : Step.Outcome s s' w look step step') : step.Tracks w look := by
  cases h with
  | taken hlook hlast hnests => exact ⟨_, hlook, hlast, hnests⟩
  | complete _ hlevels hend => exact ⟨hlevels, hend⟩
  | abandon _ _ _ _ _ _ => rfl
  | overlong hlook hpayload hvalue => exact ⟨_, _, hlook, hpayload, hvalue⟩

/-- What one step does to the open delimiters. -/
theorem Work.step_tracks {s : Setting} (w : Work) (look : Look) : (w.step s look).Tracks w look :=
  (step_outcome s s w look).tracks

end FormulaLint
