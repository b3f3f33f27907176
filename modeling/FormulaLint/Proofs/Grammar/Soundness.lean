import FormulaLint.Proofs.Grammar.Steps
import FormulaLint.Proofs.Outcomes

/-!
# Reading nothing but what the grammar derives

The clause in progress says how the tokens read so far fit the grammar: which phrases are complete,
which operators wait, and which delimiters are open around them.  Every step keeps that relation,
and a clause that is complete is an expression of the grammar.

Main results:

- Theorem {lit}`Work.step_justified`: what each outcome of a step means for the tokens read.
-/

namespace FormulaLint

/-! ## Tokens in front of the expression in progress -/

/-- The last of some tokens, if there is one, stands at the given place. -/
def EndsAt (span : Span) (ts : List Token) : Prop :=
  ∀ t, ts.getLast? = some t → span = t.span

/-- The finished items of a list, each with its separator. -/
def Listed {α : Type} (items : List α → Phrase) (xs : List α) (ts : List Token) : Prop :=
  xs = [] ∧ ts = [] ∨
    ∃ front t, ts = front ++ [t] ∧ xs ≠ [] ∧ t.Lists ∧ Derives (items xs) front

/-- The tokens of a call up to its opening parenthesis: arguments and a closing one complete it. -/
def CallHead (name : String) (qualifiers : List String) (start : Span) (ts : List Token) : Prop :=
  ∀ es inner (closing : Token), Derives (.arguments es) inner → closing.Closes .parenthesis →
    Derives (.member (.call name es qualifiers (start.cover closing.span)))
      (ts ++ (inner ++ [closing]))

/-- The tokens between the start of an operand with delimiters and the part in progress inside
them; of a chain, without its finished clauses. -/
def Fronts (opening : Token) (bracket : Bracket) (ts : List Token) : Prop :=
  match bracket with
  | .group => opening.Opens .parenthesis ∧ ts = [opening]
  | .call name arguments qualifiers start =>
      ∃ head front, ts = head ++ front ∧ CallHead name qualifiers start head ∧
        Listed .arguments arguments front
  | .record fields name nameSpan =>
      opening.Opens .brace ∧ ∃ front t colon quoted, ts = opening :: (front ++ [t, colon]) ∧
        Listed .fields fields front ∧ t.payload = .identifier name quoted ∧ nameSpan = t.span ∧
        colon.payload = .separator .colon
  | .table elements =>
      opening.Opens .bracket ∧ ∃ front, ts = opening :: front ∧ Listed .elements elements front

/-- The finished clauses of the chain in progress, each with its separator. -/
def Finished (level : Level) (ts : List Token) : Prop :=
  level.Chains ∧ level.clauses ≠ [] ∧ (∃ front t, ts = front ++ [t] ∧ t.Chains ∧
    Derives (.clauses level.clauses) front ∧ StartsAt level.chainStart front) ∨
  (level.Chains → level.clauses = []) ∧ ts = []

/-- A chain whose first clause is in progress starts with the tokens of that clause. -/
def ChainStarts : List Level → List Token → Prop
  | [], _ => True
  | level :: _, ts => level.Chains → level.clauses = [] → StartsAt level.chainStart ts

/-- The tokens in front of the expression in progress, inside all open delimiters. -/
def Within : List Level → List Token → Prop
  | [], ts => ts = []
  | level :: rest, ts => ∃ outer waiting front finished,
      ts = outer ++ (waiting ++ (front ++ finished)) ∧ Within rest outer ∧
      Waits level.outer waiting ∧ ChainStarts rest (waiting ++ (front ++ finished)) ∧
      Fronts level.opening level.bracket front ∧ Finished level finished

/-- Tokens that end with those of the operand in progress: it stands behind the waiting operators,
inside the open delimiters. -/
def Stands (levels : List Level) (pending : List Pending) (ts operand : List Token) : Prop :=
  ∃ outer waiting, ts = outer ++ (waiting ++ operand) ∧ Within levels outer ∧
    Waits pending waiting ∧ ChainStarts levels (waiting ++ operand)

section

variable {level : Level} {levels rest : List Level} {pending : List Pending}
  {ts more operand : List Token} {span : Span}

/-- Tokens behind do not change where a chain starts. -/
theorem ChainStarts.append (h : ChainStarts levels ts) (more : List Token) :
    ChainStarts levels (ts ++ more) := by
  cases levels with
  | nil => trivial
  | cons level rest => exact fun hchains hclauses => (h hchains hclauses).append more

/-- Tokens that follow belong to the operand. -/
theorem Stands.append (h : Stands levels pending ts operand) (more : List Token) :
    Stands levels pending (ts ++ more) (operand ++ more) := by
  rcases h with ⟨outer, waiting, rfl, hwithin, hwaits, hstarts⟩
  refine ⟨outer, waiting, by simp, hwithin, hwaits, ?_⟩
  rw [← List.append_assoc]
  exact hstarts.append more

/-- The operand may leave other operators waiting. -/
theorem Stands.waits {pending' : List Pending} (h : Stands levels pending ts operand)
    (hwaits : ∀ waiting, Waits pending waiting → Waits pending' (waiting ++ operand)) :
    Stands levels pending' ts [] := by
  rcases h with ⟨outer, waiting, rfl, hwithin, hw, hstarts⟩
  exact ⟨outer, waiting ++ operand, by simp, hwithin, hwaits waiting hw, by simpa using hstarts⟩

/-- Inside a delimiter stands what stands around it, with the delimiter's own tokens. -/
theorem within_cons : Within (level :: rest) ts ↔ ∃ front finished,
    Stands rest level.outer ts (front ++ finished) ∧ Fronts level.opening level.bracket front ∧
      Finished level finished := by
  constructor
  · rintro ⟨outer, waiting, front, finished, hts, hwithin, hwaits, hstarts, hfronts, hfinished⟩
    exact ⟨front, finished, ⟨outer, waiting, hts, hwithin, hwaits, hstarts⟩, hfronts, hfinished⟩
  · rintro ⟨front, finished, ⟨outer, waiting, hts, hwithin, hwaits, hstarts⟩, hfronts, hfinished⟩
    exact ⟨outer, waiting, front, finished, hts, hwithin, hwaits, hstarts, hfronts, hfinished⟩

/-- The last of some tokens is the one that was added. -/
theorem endsAt_snoc (ts : List Token) (t : Token) : EndsAt t.span (ts ++ [t]) := by
  intro t' ht'
  obtain rfl : t = t' := by simpa using ht'
  rfl

/-- The last of some tokens is the last of those at their end. -/
theorem EndsAt.of_append (h : EndsAt span (more ++ ts)) : EndsAt span ts := by
  intro t ht
  refine h t ?_
  cases ts with
  | nil => simp at ht
  | cons t₁ rest =>
      rw [List.getLast?_append, ht]
      rfl

/-- The last token of all is the last of those that end the operand. -/
theorem Stands.endsAt (h : Stands levels pending ts (operand ++ more)) (hlast : EndsAt span ts) :
    EndsAt span more := by
  rcases h with ⟨outer, waiting, rfl, -⟩
  rw [← List.append_assoc, ← List.append_assoc] at hlast
  exact hlast.of_append

/-- Behind the front of a delimiter, with no clause of a chain finished, an expression starts. -/
theorem Stands.within_fronts (h : Stands rest level.outer ts operand)
    (hfronts : Fronts level.opening level.bracket operand)
    (hclauses : level.Chains → level.clauses = []) : Within (level :: rest) ts :=
  within_cons.mpr ⟨operand, [], by simpa using h, hfronts, Or.inr ⟨hclauses, rfl⟩⟩

/-- Outside chains, what starts inside a delimiter stands behind no waiting operator. -/
theorem Within.stands (h : Within (level :: rest) ts) (hlevel : ¬ level.Chains) :
    Stands (level :: rest) [] ts [] :=
  ⟨ts, [], by simp, h, .nil, fun hchains => absurd hchains hlevel⟩

/-- A complete expression stands behind no waiting operator. -/
theorem Stands.within (h : Stands levels [] ts operand) :
    ∃ outer, ts = outer ++ operand ∧ Within levels outer ∧ ChainStarts levels operand := by
  rcases h with ⟨outer, waiting, rfl, hwithin, hwaits, hstarts⟩
  cases hwaits
  exact ⟨outer, rfl, hwithin, hstarts⟩

/-- Without a binary operator behind it, the operand completes the whole expression. -/
theorem Stands.settle_none {n : Nat} {e : Expr} (h : Stands levels pending ts operand)
    (htakes : operandLevel ≤ n) (he : Derives (.level n e) operand) :
    ∃ whole body, settle none pending e = .ok (whole, []) ∧ Derives (.level 0 whole) body ∧
      Stands levels [] ts body := by
  rcases h with ⟨outer, waiting, rfl, hwithin, hwaits, hstarts⟩
  rcases hwaits.settle_none (hwaits.takes_operand.mono htakes) he with ⟨whole, hsettle, hwhole⟩
  exact ⟨whole, waiting ++ operand, hsettle, hwhole, outer, [], rfl, hwithin, .nil, hstarts⟩

/-- In front of a binary operator the operators that wait on can take it. -/
theorem Stands.settle_some {op : Operator} {m : Nat} {g : Associativity} {t : Token} {e l : Expr}
    {left : List Pending} (h : Stands levels pending ts operand)
    (he : Derives (.level operandLevel e) operand) (hop : op.binding? = some (m, g))
    (ht : t.payload = .operator op) (hsettle : settle (some m) pending e = .ok (l, left)) :
    Stands levels (.binary op l :: left) (ts ++ [t]) [] := by
  rcases h with ⟨outer, waiting, rfl, hwithin, hwaits, hstarts⟩
  have hfloor : leftFloor m g ≤ operandLevel :=
    Nat.le_trans (leftFloor_le_succ m g) (Operator.binding_lt hop)
  rcases hwaits.settle_some hop hwaits.takes_operand hfloor he hsettle
    with ⟨front, back, htokens, hleft, htakes, hl⟩
  refine ⟨outer, front ++ (back ++ [t]), ?_, hwithin, .binary hleft htakes hop hl ht, ?_⟩
  · simp [htokens]
  · rw [List.append_nil, ← List.append_assoc, ← htokens]
    exact hstarts.append [t]

end

/-! ## Items of lists -/

section

variable {e : Expr} {front inner : List Token}

/-- One more argument behind those that are finished. -/
theorem Listed.argument {arguments : List Expr} (h : Listed .arguments arguments front)
    (he : Derives (.chain e) inner) :
    Derives (.arguments (arguments ++ [e])) (front ++ inner) := by
  rcases h with ⟨rfl, rfl⟩ | ⟨items, t, rfl, hne, ht, hitems⟩
  · exact .firstArgument he
  · simpa using Derives.nextArgument hitems hne ht he

/-- One more element behind those that are finished. -/
theorem Listed.element {elements : List Expr} (h : Listed .elements elements front)
    (he : Derives (.level 0 e) inner) :
    Derives (.elements (elements ++ [e])) (front ++ inner) := by
  rcases h with ⟨rfl, rfl⟩ | ⟨items, t, rfl, hne, ht, hitems⟩
  · exact .firstElement he
  · simpa using Derives.nextElement hitems hne ht he

/-- One more field behind those that are finished. -/
theorem Listed.field {fields : List Field} {t colon : Token} {name : String} {quoted : Bool}
    (h : Listed .fields fields front) (hname : t.payload = .identifier name quoted)
    (hcolon : colon.payload = .separator .colon) (he : Derives (.level 0 e) inner) :
    Derives (.fields (fields ++ [.mk name e (t.span.cover e.span)]))
      (front ++ t :: colon :: inner) := by
  rcases h with ⟨rfl, rfl⟩ | ⟨items, separator, rfl, hne, hseparator, hitems⟩
  · exact .firstField hname hcolon he
  · simpa using Derives.nextField hitems hne hseparator hname hcolon he

/-- Items with a separator behind them. -/
theorem Listed.snoc {α : Type} {items : List α → Phrase} {xs : List α} {x : α} {t : Token}
    (h : Derives (items (xs ++ [x])) front) (ht : t.Lists) :
    Listed items (xs ++ [x]) (front ++ [t]) :=
  Or.inr ⟨front, t, rfl, by simp, ht, h⟩

/-- A record holds no chain. -/
theorem not_chains_of_record {level : Level} {fields : List Field} {name : String} {span : Span}
    (h : level.bracket = .record fields name span) : ¬ level.Chains := by
  rintro (h' | ⟨_, _, _, _, h'⟩) <;> simp [h] at h'

/-- A table holds no chain. -/
theorem not_chains_of_table {level : Level} {elements : List Expr}
    (h : level.bracket = .table elements) : ¬ level.Chains := by
  rintro (h' | ⟨_, _, _, _, h'⟩) <;> simp [h] at h'

/-- Without a chain there are no finished clauses. -/
theorem Finished.eq_nil {level : Level} (h : Finished level front) (hlevel : ¬ level.Chains) :
    front = [] := by
  rcases h with ⟨hchains, -⟩ | ⟨-, hempty⟩
  · exact absurd hchains hlevel
  · exact hempty

/-- One more clause behind those that are finished. -/
theorem Finished.clause {level : Level} (h : Finished level front) (hlevel : level.Chains)
    (he : Derives (.level 0 e) inner)
    (hstart : level.clauses = [] → StartsAt level.chainStart inner) :
    Derives (.clauses (level.clauses ++ [e])) (front ++ inner) ∧
      StartsAt level.chainStart (front ++ inner) := by
  rcases h with ⟨-, -, clauses, t, rfl, ht, hclauses, hstarts⟩ | ⟨hempty, rfl⟩
  · constructor
    · simpa using Derives.nextClause hclauses ht he
    · rw [List.append_assoc]
      exact hstarts.append _
  · rw [hempty hlevel]
    exact ⟨.firstClause he, hstart (hempty hlevel)⟩

end

/-! ## The clause in progress -/

/-- What was read of the clause in progress, by what may come next. -/
def Expectation.Reads (pending : List Pending) (levels : List Level) (ts : List Token) :
    Expectation → Prop
  | .operand => Stands levels pending ts []
  | .groupStart | .chainStart => pending = [] ∧ ∃ level rest front, levels = level :: rest ∧
      Stands rest level.outer ts front ∧ Fronts level.opening level.bracket front
  | .callStart => pending = [] ∧ ∃ level rest front name qualifiers start,
      levels = level :: rest ∧ level.bracket = .call name [] qualifiers start ∧
      Stands rest level.outer ts front ∧ CallHead name qualifiers start front
  | .chainNext => pending = [] ∧ ∃ level rest, levels = level :: rest ∧ level.Chains ∧
      level.clauses ≠ [] ∧ Within levels ts
  | .elementStart => pending = [] ∧ ∃ level rest, levels = level :: rest ∧
      level.bracket = .table [] ∧ level.opening.Opens .bracket ∧
      Stands rest level.outer ts [level.opening]
  | .fieldStart => pending = [] ∧ ∃ level rest name span, levels = level :: rest ∧
      level.bracket = .record [] name span ∧ level.opening.Opens .brace ∧
      Stands rest level.outer ts [level.opening]
  | .fieldName => pending = [] ∧ ∃ level rest fields name span front, levels = level :: rest ∧
      level.bracket = .record fields name span ∧ level.opening.Opens .brace ∧
      Listed .fields fields front ∧ Stands rest level.outer ts (level.opening :: front)
  | .colon => pending = [] ∧ ∃ level rest fields name t quoted front, levels = level :: rest ∧
      level.bracket = .record fields name t.span ∧ level.opening.Opens .brace ∧
      Listed .fields fields front ∧ t.payload = .identifier name quoted ∧
      Stands rest level.outer ts (level.opening :: (front ++ [t]))
  | .named name quoted span => ∃ t, t.payload = .identifier name quoted ∧ span = t.span ∧
      Stands levels pending ts [t]
  | .primary e => ∃ operand, Derives (.member e) operand ∧ Stands levels pending ts operand
  | .memberName base op span => ∃ operand t, Derives (.member base) operand ∧
      base.isLiteral = false ∧ (op = .dot ∨ op = .notSign) ∧ t.payload = .operator op ∧
      span = t.span ∧ Stands levels pending ts (operand ++ [t])
  | .memberRead base op span name nameSpan => ∃ operand separator t quoted,
      Derives (.member base) operand ∧ base.isLiteral = false ∧ (op = .dot ∨ op = .notSign) ∧
      separator.payload = .operator op ∧ span = separator.span ∧
      t.payload = .identifier name quoted ∧ nameSpan = t.span ∧
      Stands levels pending ts (operand ++ [separator, t])
  | .suffixed e => ∃ operand, Derives (.suffixed e) operand ∧ Stands levels pending ts operand

/-- How the clause in progress fits the tokens read. -/
def Work.Reads (w : Work) (ts : List Token) : Prop :=
  EndsAt w.last ts ∧ w.expect.Reads w.pending w.levels ts

/-- The parser does not look at a token that was reported before. -/
def Look.Clean (look : Look) : Prop :=
  ∀ t, look = some t → t.isError = false

/-- What a step means for the tokens read in front of it. -/
def Step.Justified (ts : List Token) (look : Look) : Step → Prop
  | .next w => ∃ t, look = some t ∧ w.expect.Reads w.pending w.levels (ts ++ [t])
  | .complete e => Derives (.level 0 e) ts
  | .abandon _ diagnostic _ => look.Clean → diagnostic ≠ none
  | .overlong _ => True

/-- A token that was not reported before gets its diagnostic. -/
theorem Look.Clean.diagnostic_ne_none {look : Look} (h : look.Clean) (s : Setting)
    (code : DiagnosticCode) (message : String) : look.diagnostic? s code message ≠ none := by
  cases look with
  | none => simp [Look.diagnostic?]
  | some t => simp [Look.diagnostic?, h t rfl]

namespace Work

variable {s : Setting} {w : Work} {level : Level} {rest : List Level} {look : Look}
  {ts front inner operand : List Token} {e : Expr}

/-- The start of an operand. -/
theorem startOperand_justified
    (h : ∀ t, look = some t → Stands w.levels w.pending (ts ++ [t]) [t]) :
    (startOperand s w look).Justified ts look := by
  cases look with
  | none => exact fun hclean => hclean.diagnostic_ne_none s _ _
  | some t =>
      have hstands := h t rfl
      cases hpayload : t.payload with
      | operator op =>
          simp only [startOperand, hpayload]
          split
          · rename_i hprefix
            refine ⟨t, rfl, hstands.waits fun waiting hwaits => ?_⟩
            exact .unary hwaits hprefix hpayload
          · exact fun hclean => hclean.diagnostic_ne_none s _ _
      | number text =>
          simp only [startOperand, hpayload]
          split
          · rename_i value hvalue
            have hliteral : t.literal? = some (.number value text) := by
              simp [Token.literal?, hpayload, hvalue]
            exact ⟨t, rfl, [t], .bare (.literal hliteral), hstands⟩
          · trivial
      | logical value =>
          simp only [startOperand, hpayload]
          have hliteral : t.literal? = some (.logical value) := by simp [Token.literal?, hpayload]
          exact ⟨t, rfl, [t], .bare (.literal hliteral), hstands⟩
      | text value =>
          simp only [startOperand, hpayload]
          have hliteral : t.literal? = some (.text value) := by simp [Token.literal?, hpayload]
          exact ⟨t, rfl, [t], .bare (.literal hliteral), hstands⟩
      | identifier name quoted =>
          simp only [startOperand, hpayload]
          exact ⟨t, rfl, t, hpayload, rfl, hstands⟩
      | global name =>
          simp only [startOperand, hpayload]
          exact ⟨t, rfl, [t], .bare (.global hpayload), hstands⟩
      | field source name =>
          simp only [startOperand, hpayload]
          exact ⟨t, rfl, [t], .bare (.field hpayload), hstands⟩
      | separator sep =>
          cases sep with
          | opening delimiter =>
              cases delimiter with
              | parenthesis =>
                  simp only [startOperand, hpayload]
                  exact ⟨t, rfl, rfl, _, _, [t], rfl, hstands, hpayload, rfl⟩
              | brace =>
                  simp only [startOperand, hpayload]
                  exact ⟨t, rfl, rfl, _, _, _, _, rfl, rfl, hpayload, hstands⟩
              | bracket =>
                  simp only [startOperand, hpayload]
                  exact ⟨t, rfl, rfl, _, _, rfl, rfl, hpayload, hstands⟩
          | closing _ | colon | list | chaining =>
              simp only [startOperand, hpayload]
              exact fun hclean => hclean.diagnostic_ne_none s _ _
      | error code =>
          simp only [startOperand, hpayload]
          exact fun hclean => hclean.diagnostic_ne_none s _ _

/-- The start of a chain. -/
theorem startChain_justified {pending : List Pending} {x : Expectation} {last : Span}
    (hpending : pending = []) (hstands : Stands rest level.outer ts front)
    (hfronts : Fronts level.opening level.bracket front) :
    (startChain s ⟨pending, level :: rest, x, last⟩ look).Justified ts look := by
  subst hpending
  refine startOperand_justified fun t hlook => ?_
  subst hlook
  refine ⟨ts, [], rfl, ?_, .nil, ?_⟩
  · exact Stands.within_fronts hstands hfronts fun _ => rfl
  · exact fun _ _ => ⟨t, [], rfl, rfl⟩

/-- The end of what stands between delimiters. -/
theorem closeLevel_justified {build : Span → Expr}
    (h : ∀ t, look = some t → t.Closes level.bracket.delimiter →
      ∃ operand, Derives (.member (build t.span)) operand ∧
        Stands rest level.outer (ts ++ [t]) operand) :
    (closeLevel s level rest look build).Justified ts look := by
  unfold closeLevel
  dsimp only
  split
  · rename_i found t hlook
    split
    · rename_i hfound
      subst hfound
      exact ⟨t, rfl, h t rfl (payload_of_separator hlook)⟩
    · exact fun hclean => hclean.diagnostic_ne_none s _ _
  · exact fun hclean => hclean.diagnostic_ne_none s _ _
  · exact fun hclean => hclean.diagnostic_ne_none s _ _
  · exact fun hclean => hclean.diagnostic_ne_none s _ _

/-- The end of a chain. -/
theorem finishChain_justified {last : Span} (hlevel : level.Chains)
    (hstands : Stands rest level.outer ts (front ++ inner))
    (hfronts : Fronts level.opening level.bracket front)
    (hinner : Derives (.chain (chainExpr level last)) inner) :
    (finishChain s level rest last look).Justified ts look := by
  rcases hlevel with hbracket | ⟨name, arguments, qualifiers, start, hbracket⟩
  · rw [hbracket] at hfronts
    rcases hfronts with ⟨hopening, rfl⟩
    simp only [finishChain, hbracket]
    refine closeLevel_justified fun t _ hclosing => ?_
    rw [hbracket] at hclosing
    exact ⟨_, .bare (.group hopening hinner hclosing), by simpa using hstands.append [t]⟩
  · rw [hbracket] at hfronts
    rcases hfronts with ⟨head, front, rfl, hhead, hlisted⟩
    have harguments := hlisted.argument hinner
    simp only [finishChain, hbracket]
    split
    · rename_i t hlook
      refine ⟨t, rfl, rfl, _, rest, _, rfl, hstands.append [t], head, front ++ inner ++ [t],
        by simp, hhead, ?_⟩
      exact .snoc harguments (payload_of_separator hlook)
    · refine closeLevel_justified fun t _ hclosing => ?_
      rw [hbracket] at hclosing
      refine ⟨_, hhead _ _ t harguments hclosing, ?_⟩
      simpa using hstands.append [t]

section

variable {pending : List Pending} {x : Expectation} {last : Span}

/-- The end of an expression inside a chain, where it is one more clause. -/
theorem finishExpression_chain_justified (hlevel : level.Chains)
    (hwithin : Within (level :: rest) ts)
    (hstarts : level.clauses = [] → StartsAt level.chainStart inner)
    (he : Derives (.level 0 e) inner) (hlast : EndsAt last (ts ++ inner)) :
    (finishExpression s ⟨pending, level :: rest, x, last⟩ e look).Justified (ts ++ inner) look := by
  rcases within_cons.mp hwithin with ⟨front, finished, hstands, hfronts, hfinished⟩
  rcases hfinished.clause hlevel he hstarts with ⟨hclauses, hstart⟩
  have hexpression : Stands rest level.outer (ts ++ inner) (front ++ (finished ++ inner)) := by
    simpa using hstands.append inner
  have hchain : Derives (.chain (chainExpr { level with clauses := level.clauses ++ [e] } last))
      (finished ++ inner) := by
    have htree := @chainExpr_eq { level with clauses := level.clauses ++ [e] } _ _ hstart
      (hexpression.endsAt hlast)
    rw [htree]
    exact .chain hclauses
  have hnext : ∀ t : Token, look = some t → look.separator? = some .chaining →
      (Step.next ⟨[], { level with clauses := level.clauses ++ [e] } :: rest, .chainNext,
        t.span⟩).Justified (ts ++ inner) look := by
    intro t hlook hseparator
    subst hlook
    refine ⟨t, rfl, rfl, _, rest, rfl, hlevel, by simp, within_cons.mpr ?_⟩
    refine ⟨front, finished ++ inner ++ [t], ?_, hfronts, Or.inl ?_⟩
    · simpa using hexpression.append [t]
    · exact ⟨hlevel, by simp, _, t, rfl, payload_of_separator hseparator, hclauses, hstart⟩
  have hend : (finishChain s { level with clauses := level.clauses ++ [e] } rest last
      look).Justified (ts ++ inner) look :=
    finishChain_justified hlevel hexpression hfronts hchain
  rcases hlevel with hbracket | ⟨_, _, _, _, hbracket⟩
  · simp only [finishExpression, hbracket] at hnext hend ⊢
    split
    · rename_i hseparator
      exact hnext _ rfl hseparator
    · exact hend
  · simp only [finishExpression, hbracket] at hnext hend ⊢
    split
    · rename_i hseparator
      exact hnext _ rfl hseparator
    · exact hend

/-- The end of an expression inside a record, where it is the value of a field. -/
theorem finishExpression_record_justified {fields : List Field} {name : String} {nameSpan : Span}
    (hbracket : level.bracket = .record fields name nameSpan) (hwithin : Within (level :: rest) ts)
    (he : Derives (.level 0 e) inner) :
    (finishExpression s ⟨pending, level :: rest, x, last⟩ e look).Justified (ts ++ inner) look := by
  rcases within_cons.mp hwithin with ⟨front, finished, hstands, hfronts, hfinished⟩
  rcases hfinished.eq_nil (not_chains_of_record hbracket) with rfl
  rw [hbracket] at hfronts
  rcases hfronts with ⟨hopening, items, t, colon, quoted, rfl, hlisted, hname, rfl, hcolon⟩
  have hfields := hlisted.field hname hcolon he
  have hexpression : Stands rest level.outer (ts ++ inner)
      (level.opening :: (items ++ t :: colon :: inner)) := by
    simpa using hstands.append inner
  simp only [finishExpression, hbracket]
  split
  · rename_i separator hlook
    refine ⟨separator, rfl, rfl, _, rest, _, name, _, _, rfl, rfl, hopening,
      .snoc hfields (payload_of_separator hlook), hexpression.append [separator]⟩
  · refine closeLevel_justified fun closing _ hclosing => ?_
    rw [hbracket] at hclosing
    refine ⟨_, .bare (.record hopening hfields hclosing), hexpression.append [closing]⟩

/-- The end of an expression inside a table, where it is an element. -/
theorem finishExpression_table_justified {elements : List Expr}
    (hbracket : level.bracket = .table elements) (hwithin : Within (level :: rest) ts)
    (he : Derives (.level 0 e) inner) :
    (finishExpression s ⟨pending, level :: rest, x, last⟩ e look).Justified (ts ++ inner) look := by
  rcases within_cons.mp hwithin with ⟨front, finished, hstands, hfronts, hfinished⟩
  rcases hfinished.eq_nil (not_chains_of_table hbracket) with rfl
  rw [hbracket] at hfronts
  rcases hfronts with ⟨hopening, items, rfl, hlisted⟩
  have helements := hlisted.element he
  have hexpression : Stands rest level.outer (ts ++ inner) (level.opening :: (items ++ inner)) := by
    simpa using hstands.append inner
  simp only [finishExpression, hbracket]
  split
  · rename_i separator hlook
    have hlevel : ¬ { level with bracket := Bracket.table (elements ++ [e]) }.Chains :=
      not_chains_of_table rfl
    refine ⟨separator, rfl, Within.stands ?_ hlevel⟩
    refine Stands.within_fronts (hexpression.append [separator]) ?_ fun hchains =>
      absurd hchains hlevel
    exact ⟨hopening, _, rfl, .snoc helements (payload_of_separator hlook)⟩
  · refine closeLevel_justified fun closing _ hclosing => ?_
    rw [hbracket] at hclosing
    exact ⟨_, .bare (.table hopening helements hclosing), hexpression.append [closing]⟩

/-- The end of an expression. -/
theorem finishExpression_justified {levels : List Level} (hstands : Stands levels [] ts inner)
    (he : Derives (.level 0 e) inner) (hlast : EndsAt last ts) :
    (finishExpression s ⟨pending, levels, x, last⟩ e look).Justified ts look := by
  rcases hstands.within with ⟨outer, rfl, hwithin, hstarts⟩
  cases levels with
  | nil =>
      obtain rfl : outer = [] := hwithin
      simp only [finishExpression]
      split
      · exact he
      · exact he
      · intro hclean
        unfold unexpected?
        split <;> exact hclean.diagnostic_ne_none s _ _
  | cons level rest =>
      cases hbracket : level.bracket with
      | group =>
          have hlevel : level.Chains := Or.inl hbracket
          exact finishExpression_chain_justified hlevel hwithin (hstarts hlevel) he hlast
      | call name arguments qualifiers start =>
          have hlevel : level.Chains := Or.inr ⟨name, arguments, qualifiers, start, hbracket⟩
          exact finishExpression_chain_justified hlevel hwithin (hstarts hlevel) he hlast
      | record fields name nameSpan =>
          exact finishExpression_record_justified hbracket hwithin he
      | table elements => exact finishExpression_table_justified hbracket hwithin he

/-- The end of an operand. -/
theorem finishOperand_justified {levels : List Level} (hstands : Stands levels pending ts operand)
    (he : Derives (.level operandLevel e) operand) (hlast : EndsAt last ts) :
    (finishOperand s ⟨pending, levels, x, last⟩ e look).Justified ts look := by
  have hall : (finishOperand.finishAll s ⟨pending, levels, x, last⟩ e look).Justified ts look := by
    rcases hstands.settle_none (Nat.le_refl _) he with ⟨whole, body, hsettle, hwhole, hbody⟩
    simp only [finishOperand.finishAll, hsettle]
    exact finishExpression_justified hbody hwhole hlast
  unfold finishOperand
  split
  · rename_i t op hlook
    split
    · rename_i m g hop
      split
      · rename_i l left hsettle
        exact ⟨t, rfl, hstands.settle_some he hop (payload_of_operator hlook) hsettle⟩
      · exact fun hclean => hclean.diagnostic_ne_none s _ _
    · exact hall
  · exact hall

/-- Behind an operand with its percent signs. -/
theorem stepSuffix_justified {levels : List Level} (hstands : Stands levels pending ts operand)
    (he : Derives (.suffixed e) operand) (hlast : EndsAt last ts) :
    (stepSuffix s ⟨pending, levels, x, last⟩ e look).Justified ts look := by
  unfold stepSuffix
  split
  · rename_i t hlook
    exact ⟨t, rfl, operand ++ [t], .percent he (payload_of_operator hlook), hstands.append [t]⟩
  · exact finishOperand_justified hstands (.operand he) hlast

/-- Behind an expression with its members. -/
theorem stepMember_justified {levels : List Level} (hstands : Stands levels pending ts operand)
    (he : Derives (.member e) operand) (hlast : EndsAt last ts) :
    (stepMember s ⟨pending, levels, x, last⟩ e look).Justified ts look := by
  have haccess : ∀ (t : Token) (op : Operator), op = .dot ∨ op = .notSign →
      Look.operator? (some t) = some op →
      (if e.isLiteral then stepSuffix s ⟨pending, levels, x, last⟩ e (some t)
        else .next (Work.advance ⟨pending, levels, x, last⟩ t (.memberName e op t.span))).Justified
        ts (some t) := by
    intro t op hop hlook
    split
    · exact stepSuffix_justified hstands (.unsuffixed he) hlast
    · rename_i hliteral
      exact ⟨t, rfl, operand, t, he, by simpa using hliteral, hop, payload_of_operator hlook, rfl,
        hstands.append [t]⟩
  unfold stepMember
  split
  · rename_i t hlook
    rw [hlook]
    exact haccess t .dot (Or.inl rfl) hlook
  · rename_i t hlook
    rw [hlook]
    exact haccess t .notSign (Or.inr rfl) hlook
  · exact stepSuffix_justified hstands (.unsuffixed he) hlast

/-- The name of a field. -/
theorem fieldName_justified {w : Work} {fields : List Field} {name : String} {span : Span}
    (hbracket : level.bracket = .record fields name span) (hopening : level.opening.Opens .brace)
    (hlisted : Listed .fields fields front)
    (hstands : Stands rest level.outer ts (level.opening :: front)) :
    (step.fieldName s w look level rest).Justified ts look := by
  unfold step.fieldName
  split
  · rename_i t name' fields' _ _ hlook hbracket'
    rcases payload_of_identifier hlook with ⟨rfl, quoted, hpayload⟩
    obtain ⟨rfl, -, -⟩ : fields' = fields ∧ _ ∧ _ := by simpa [hbracket] using hbracket'.symm
    exact ⟨t, rfl, rfl, _, rest, fields', name', t, quoted, front, rfl, rfl, hopening, hlisted,
      hpayload, hstands.append [t]⟩
  · exact fun hclean => hclean.diagnostic_ne_none s _ _

/-- Behind the separator of a chain: its end, or one more clause. -/
theorem chainNext_justified
    (h : Expectation.Reads pending (level :: rest) ts .chainNext) (hlast : EndsAt last ts) :
    (step s ⟨pending, level :: rest, .chainNext, last⟩ look).Justified ts look := by
  rcases h with ⟨rfl, _, _, ⟨⟩, hlevel, hne, hwithin⟩
  simp only [step]
  split
  · rcases within_cons.mp hwithin with ⟨front, finished, hstands, hfronts, hfinished⟩
    refine finishChain_justified hlevel hstands hfronts ?_
    rcases hfinished with ⟨-, -, clauses, t, rfl, ht, hclauses, hstart⟩ | ⟨hempty, -⟩
    · rw [chainExpr_eq (hstart.append [t]) (hstands.endsAt hlast)]
      exact .trailedChain hclauses ht
    · exact absurd (hempty hlevel) hne
  · refine startOperand_justified fun t _ => ⟨ts, [], rfl, hwithin, .nil, ?_⟩
    exact fun _ hclauses => absurd hclauses hne

/-- Behind the brace of a table: its end, or its first element. -/
theorem elementStart_justified
    (h : Expectation.Reads pending (level :: rest) ts .elementStart) :
    (step s ⟨pending, level :: rest, .elementStart, last⟩ look).Justified ts look := by
  rcases h with ⟨rfl, _, _, ⟨⟩, hbracket, hopening, hstands⟩
  have hlevel := not_chains_of_table hbracket
  simp only [step]
  split
  · refine closeLevel_justified fun t _ hclosing => ?_
    rw [hbracket] at hclosing
    exact ⟨_, .bare (.table hopening .noElements hclosing), hstands.append [t]⟩
  · have hfronts : Fronts level.opening level.bracket [level.opening] := by
      rw [hbracket]
      exact ⟨hopening, [], rfl, Or.inl ⟨rfl, rfl⟩⟩
    have hwithin := hstands.within_fronts hfronts fun hchains => absurd hchains hlevel
    exact startOperand_justified fun t _ => (hwithin.stands hlevel).append [t]

/-- Behind the name of a field: its colon. -/
theorem colon_justified
    (h : Expectation.Reads pending (level :: rest) ts .colon) :
    (step s ⟨pending, level :: rest, .colon, last⟩ look).Justified ts look := by
  obtain ⟨rfl, _, _, fields, name, t, quoted, front, ⟨⟩, hbracket, hopening, hlisted, hname,
    hstands⟩ := h
  have hlevel := not_chains_of_record hbracket
  simp only [step]
  split
  · rename_i colon hlook
    have hfronts : Fronts level.opening level.bracket
        (level.opening :: (front ++ [t]) ++ [colon]) := by
      rw [hbracket]
      exact ⟨hopening, front, t, colon, quoted, by simp, hlisted, hname, rfl,
        payload_of_separator hlook⟩
    have hwithin := (hstands.append [colon]).within_fronts hfronts fun hchains =>
      absurd hchains hlevel
    exact ⟨colon, rfl, hwithin.stands hlevel⟩
  · exact fun hclean => hclean.diagnostic_ne_none s _ _
  · rename_i hrecord
    exact absurd hbracket (hrecord _ _ _)

/-- Behind the name of a member: a call of it, or the member. -/
theorem memberRead_justified {levels : List Level} {base : Expr} {op : Operator} {span : Span}
    {name : String} {nameSpan : Span}
    (h : Expectation.Reads pending levels ts (.memberRead base op span name nameSpan))
    (hlast : EndsAt last ts) :
    (step s ⟨pending, levels, .memberRead base op span name nameSpan, last⟩ look).Justified
      ts look := by
  obtain ⟨operand, separator, t, quoted, hbase, hliteral, hop, hseparator, rfl, hname, rfl,
    hstands⟩ := h
  have haccess := Derives.access hbase hliteral hop hseparator hname
  simp only [step]
  split
  · rename_i opening qualifiers hcall hqualifiers
    split
    · rename_i hdot
      subst hdot
      rcases payload_of_opensCall hcall with ⟨rfl, hopening⟩
      refine ⟨opening, rfl, rfl, _, _, _, name, qualifiers, base.span, rfl, rfl,
        hstands.append [opening], ?_⟩
      intro es inner closing harguments hclosing
      simpa using Derives.qualifiedCall hbase hqualifiers hseparator hname hopening harguments
        hclosing
    · exact stepMember_justified hstands haccess hlast
  · exact stepMember_justified hstands haccess hlast

end

/-- What each outcome of a step means for the tokens read. -/
theorem step_justified (s : Setting) (look : Look) (h : w.Reads ts) :
    (w.step s look).Justified ts look := by
  rcases w with ⟨pending, levels, x, last⟩
  rcases h with ⟨hlast, hreads⟩
  cases x with
  | operand => exact startOperand_justified fun t _ => hreads.append [t]
  | chainStart =>
      rcases hreads with ⟨hpending, level, rest, front, rfl, hstands, hfronts⟩
      exact startChain_justified hpending hstands hfronts
  | groupStart =>
      rcases hreads with ⟨hpending, level, rest, front, rfl, hstands, hfronts⟩
      simp only [step]
      split
      · exact fun hclean => hclean.diagnostic_ne_none s _ _
      · exact startChain_justified hpending hstands hfronts
  | callStart =>
      rcases hreads
        with ⟨hpending, level, rest, front, name, qualifiers, start, rfl, hbracket, hstands, hhead⟩
      simp only [step, hbracket]
      split
      · rename_i hbracket'
        rcases Bracket.call.inj hbracket' with ⟨rfl, rfl, rfl, rfl⟩
        refine closeLevel_justified fun t _ hclosing => ?_
        rw [hbracket] at hclosing
        exact ⟨_, hhead [] [] t .noArguments hclosing, hstands.append [t]⟩
      · refine startChain_justified hpending hstands ?_
        rw [hbracket]
        exact ⟨front, [], by simp, hhead, Or.inl ⟨rfl, rfl⟩⟩
  | chainNext =>
      obtain ⟨-, level, rest, rfl, -⟩ := id hreads
      exact chainNext_justified hreads hlast
  | elementStart =>
      obtain ⟨-, level, rest, rfl, -⟩ := id hreads
      exact elementStart_justified hreads
  | fieldStart =>
      rcases hreads with ⟨hpending, level, rest, name, span, rfl, hbracket, hopening, hstands⟩
      simp only [step]
      split
      · refine closeLevel_justified fun t _ hclosing => ?_
        rw [hbracket] at hclosing
        exact ⟨_, .bare (.record hopening .noFields hclosing), hstands.append [t]⟩
      · exact fieldName_justified hbracket hopening (Or.inl ⟨rfl, rfl⟩) hstands
  | fieldName =>
      obtain ⟨hpending, level, rest, fields, name, span, front, rfl, hbracket, hopening, hlisted,
        hstands⟩ := hreads
      exact fieldName_justified hbracket hopening hlisted hstands
  | colon =>
      obtain ⟨-, level, rest, _, _, _, _, _, rfl, -⟩ := id hreads
      exact colon_justified hreads
  | named name quoted span =>
      rcases hreads with ⟨t, hname, rfl, hstands⟩
      simp only [step]
      split
      · rename_i opening hcall
        rcases payload_of_opensCall hcall with ⟨rfl, hopening⟩
        refine ⟨opening, rfl, rfl, _, _, _, name, [], t.span, rfl, rfl, hstands.append [opening],
          ?_⟩
        intro es inner closing harguments hclosing
        exact .bare (.call hname hopening harguments hclosing)
      · exact stepMember_justified hstands (.bare (.name hname)) hlast
  | primary e =>
      rcases hreads with ⟨operand, he, hstands⟩
      exact stepMember_justified hstands he hlast
  | memberName base op span =>
      rcases hreads with ⟨operand, separator, hbase, hliteral, hop, hseparator, rfl, hstands⟩
      simp only [step]
      split
      · rename_i t name hlook
        rcases payload_of_identifier hlook with ⟨rfl, quoted, hpayload⟩
        refine ⟨t, rfl, operand, separator, t, quoted, hbase, hliteral, hop, hseparator, rfl,
          hpayload, rfl, ?_⟩
        have hnamed := hstands.append [t]
        rw [List.append_assoc] at hnamed
        exact hnamed
      · exact fun hclean => hclean.diagnostic_ne_none s _ _
  | memberRead base op span name nameSpan => exact memberRead_justified hreads hlast
  | suffixed e =>
      rcases hreads with ⟨operand, he, hstands⟩
      exact stepSuffix_justified hstands he hlast

/-- Nothing is read of a clause at its start. -/
theorem start_reads : start.Reads [] :=
  ⟨by simp [EndsAt], [], [], rfl, rfl, .nil, trivial⟩

/-- A step goes on with one more token that fits. -/
theorem Reads.next {w' : Work} {t : Token} (h : w.Reads ts) (hstep : w.step s (some t) = .next w') :
    w'.Reads (ts ++ [t]) := by
  have hjustified := step_justified s (some t) h
  have htracks := @step_tracks s w (some t)
  rw [hstep] at hjustified htracks
  rcases hjustified with ⟨t', ht', hreads⟩
  rcases htracks with ⟨t'', ht'', hlast, -⟩
  rcases Option.some.inj ht' with rfl
  rcases Option.some.inj ht'' with rfl
  exact ⟨hlast ▸ endsAt_snoc ts t, hreads⟩

end Work

end FormulaLint
