import FormulaLint.Parser.Work

/-!
# Reading one token

One step of the parser looks at a token and the clause in progress.  Operators are grouped by
their binding strength: an operator that waits takes its operand as soon as the next operator
binds no tighter.  Of the comparison and membership operators, two of one level cannot follow each
other without parentheses.
-/

namespace FormulaLint

/-- The most digits that a whole number may have. -/
def maxWholeDigits : Nat := 4300

/-- The value of a number token, or the number of its digits when they are too many. -/
def numberValue (text : String) : Except Nat Number :=
  let cs := text.toList
  if cs.any (fun c => c == '.' || c == 'e' || c == 'E') then
    .ok (.double ((Decimal.ofChars cs).toDouble false))
  else if maxWholeDigits < cs.length then .error cs.length
  else .ok (.whole (natOfDigits cs))

/-! ## Operators -/

/-- The loosest level that the operand behind a binary operator takes. -/
def rightFloor (level : Nat) : Associativity → Nat
  | .right => level
  | .left | .none => level + 1

/-- Give an operand to the operators that wait for it and bind tighter than what follows, which
is a binary operator of level {lit}`next` or something else.  The error is a comparison that
cannot be followed by another one. -/
def settle (next : Option Nat) : List Pending → Expr → Except Operator (Expr × List Pending)
  | [], e => .ok (e, [])
  | .unary op span :: rest, e => settle next rest (.unary op e (span.cover e.span))
  | .binary op left :: rest, e =>
      let (level, grouping) := op.binding?.getD (0, .left)
      let joined := Expr.binary op left e (left.span.cover e.span)
      match next with
      | none => settle next rest joined
      | some following =>
          if rightFloor level grouping ≤ following then .ok (e, .binary op left :: rest)
          else if grouping = .none ∧ following = level then .error op
          else settle next rest joined

/-- An expression without waiting operators is complete. -/
@[simp] theorem settle_nil (next : Option Nat) (e : Expr) : settle next [] e = .ok (e, []) := rfl

/-! ## Operands -/

/-- Read the start of an operand. -/
def startOperand (s : Setting) (w : Work) (look : Look) : Step :=
  let missing : Step :=
    .abandon none
      (look.diagnostic? s .missingOperand ("Expected an operand, found " ++ look.describe)) w.depth
  match look with
  | none => missing
  | some t =>
      let primary (e : Expr) : Step := .next (w.advance t (.primary e))
      match t.payload with
      | .operator op =>
          if op.isPrefix then
            .next { w.advance t .operand with pending := .unary op t.span :: w.pending }
          else missing
      | .number text =>
          match numberValue text with
          | .ok value => primary (.literal (.number value text) t.span)
          | .error digits => .overlong digits
      | .text value => primary (.literal (.text value) t.span)
      | .logical value => primary (.literal (.logical value) t.span)
      | .identifier name quoted => .next (w.advance t (.named name quoted t.span))
      | .global name => primary (.name (.global name) t.span [] t.span)
      | .field source name => primary (.name (.field source name) t.span [] t.span)
      | .separator (.opening .parenthesis) => .next (w.openBracket t .group .groupStart)
      | .separator (.opening .brace) =>
          .next (w.openBracket t (.record [] "" t.span) .fieldStart)
      | .separator (.opening .bracket) => .next (w.openBracket t (.table []) .elementStart)
      | .separator _ | .error _ => missing

/-- Read the start of a chain of expressions, and remember where it starts. -/
def startChain (s : Setting) (w : Work) (look : Look) : Step :=
  let levels := match w.levels with
    | level :: rest => { level with chainStart := look.span s, clauses := [] } :: rest
    | [] => []
  startOperand s { w with levels } look

/-! ## Delimiters -/

/-- Close the delimiter of a level around the given expression. -/
def closeLevel (s : Setting) (level : Level) (rest : List Level) (look : Look)
    (build : Span → Expr) : Step :=
  let delimiter := level.bracket.delimiter
  let depth := rest.length + 1
  match look.separator?, look with
  | some (.closing found), some t =>
      if found = delimiter then
        .next ⟨level.outer, rest, .primary (build t.span), t.span⟩
      else .abandon none (unclosed delimiter) depth
  | some _, _ | none, some _ =>
      .abandon none
        (look.diagnostic? s .unexpectedToken
          ("Expected '" ++ s.profile.listSeparator ++ "' or '" ++ delimiter.closing ++ "', found " ++
            look.describe)) depth
  | none, none => .abandon none (unclosed delimiter) depth
where
  /-- The opening delimiter has no match. -/
  unclosed (delimiter : Delimiter) : Option Diagnostic :=
    look.diagnostic? s .unbalancedDelimiter
      ("'" ++ delimiter.opening ++ "' opened at " ++ toString level.opening.span.line ++ ":" ++
        toString level.opening.span.column ++ " is never closed (found " ++ look.describe ++ ")")

/-- The expression of a finished chain: a single clause stands for itself. -/
def chainExpr (level : Level) (last : Span) : Expr :=
  match level.clauses with
  | [only] => only
  | several => .chain several (level.chainStart.cover last)

/-- Close a record behind its fields. -/
def closeRecord (s : Setting) (level : Level) (rest : List Level) (look : Look)
    (fields : List Field) : Step :=
  closeLevel s level rest look fun closing => .record fields (level.opening.span.cover closing)

/-- Close a table behind its elements. -/
def closeTable (s : Setting) (level : Level) (rest : List Level) (look : Look)
    (elements : List Expr) : Step :=
  closeLevel s level rest look fun closing => .table elements (level.opening.span.cover closing)

/-- Go on behind a finished part of a level, at the token in front of the next part. -/
def nextPart (level : Level) (rest : List Level) (t : Token) (bracket : Bracket)
    (expect : Expectation) : Step :=
  .next ⟨[], { level with bracket } :: rest, expect, t.span⟩

/-- A chain has ended in front of the token: in a call it is an argument, in a group the content. -/
def finishChain (s : Setting) (level : Level) (rest : List Level) (last : Span) (look : Look) :
    Step :=
  let inner := chainExpr level last
  match level.bracket with
  | .call function arguments qualifiers start =>
      let arguments := arguments ++ [inner]
      match look.separator?, look with
      | some .list, some t =>
          nextPart level rest t (.call function arguments qualifiers start) .chainStart
      | _, _ =>
          closeLevel s level rest look fun closing =>
            .call function arguments qualifiers (start.cover closing)
  | .group | .record _ _ _ | .table _ => closeLevel s level rest look fun _ => inner

/-! ## Behind an expression -/

/-- A token that cannot follow a complete clause. -/
def unexpected? (s : Setting) (look : Look) : Option Diagnostic :=
  match look.separator? with
  | some (.closing delimiter) =>
      look.diagnostic? s .unbalancedDelimiter
        ("Unmatched closing '" ++ delimiter.closing ++ "'")
  | _ => look.diagnostic? s .unexpectedToken ("Unexpected " ++ look.describe)

/-- An expression has ended in front of the token. -/
def finishExpression (s : Setting) (w : Work) (e : Expr) (look : Look) : Step :=
  match w.levels with
  | [] =>
      match look.separator?, look with
      | some .chaining, _ | none, none => .complete e
      | _, _ => .abandon (some e) (unexpected? s look) 0
  | level :: rest =>
      match level.bracket with
      | .group | .call _ _ _ _ =>
          let level := { level with clauses := level.clauses ++ [e] }
          match look.separator?, look with
          | some .chaining, some t => .next ⟨[], level :: rest, .chainNext, t.span⟩
          | _, _ => finishChain s level rest w.last look
      | .record fields name nameSpan =>
          let fields := fields ++ [.mk name e (nameSpan.cover e.span)]
          match look.separator?, look with
          | some .list, some t => nextPart level rest t (.record fields name nameSpan) .fieldName
          | _, _ => closeRecord s level rest look fields
      | .table elements =>
          let elements := elements ++ [e]
          match look.separator?, look with
          | some .list, some t => nextPart level rest t (.table elements) .operand
          | _, _ => closeTable s level rest look elements

/-- An operand with its prefixes and suffixes has ended in front of the token. -/
def finishOperand (s : Setting) (w : Work) (e : Expr) (look : Look) : Step :=
  match look, look.operator? with
  | some t, some op =>
      match op.binding? with
      | some (level, _) =>
          match settle (some level) w.pending e with
          | .ok (left, pending) =>
              .next { w.advance t .operand with pending := .binary op left :: pending }
          | .error waiting =>
              .abandon none
                (look.diagnostic? s .chainedComparison
                  ("'" ++ op.spelling ++ "' cannot follow '" ++ waiting.spelling ++
                    "' without parentheses")) w.depth
      | none => finishAll
  | _, _ => finishAll
where
  /-- No binary operator follows, so every waiting operator gets its operand. -/
  finishAll : Step :=
    match settle none w.pending e with
    | .ok (whole, _) => finishExpression s { w with pending := [] } whole look
    | .error _ => .abandon none none w.depth

/-- Percent signs may follow an operand. -/
def stepSuffix (s : Setting) (w : Work) (e : Expr) (look : Look) : Step :=
  match look, look.operator? with
  | some t, some .percent =>
      .next (w.advance t (.suffixed (.unary .percent e (e.span.cover t.span))))
  | _, _ => finishOperand s w e look

/-- Member names may follow an operand that is not a literal. -/
def stepMember (s : Setting) (w : Work) (e : Expr) (look : Look) : Step :=
  match look, look.operator? with
  | some t, some .dot | some t, some .notSign =>
      if e.isLiteral then stepSuffix s w e look
      else .next (w.advance t (.memberName e (look.operator?.getD .dot) t.span))
  | _, _ => stepSuffix s w e look

/-- The names of a plain reference whose members are all accessed with a point; only such a
reference can qualify a function. -/
def qualifiers? : Expr → Option (List String)
  | .name (.plain name) _ chain _ =>
      if chain.all (·.separator = .dot) then some (name :: chain.map (·.name)) else none
  | _ => none

/-- Access a member of an expression. -/
def accessMember (base : Expr) (segment : Segment) (nameSpan : Span) : Expr :=
  match base with
  | .name identifier identifierSpan chain span =>
      .name identifier identifierSpan (chain ++ [segment]) (span.cover nameSpan)
  | .member inner chain span => .member inner (chain ++ [segment]) (span.cover nameSpan)
  | other => .member other [segment] (other.span.cover nameSpan)

/-- The reference that starts with a name. -/
def reference (name : String) (quoted : Bool) (span : Span) : Expr :=
  let identifier :=
    if contextKeywords.contains name && !quoted then Identifier.context name else .plain name
  .name identifier span [] span

/-- Whether the parser looks at an opening parenthesis. -/
def opensCall? (look : Look) : Option Token :=
  match look, look.separator? with
  | some t, some (.opening .parenthesis) => some t
  | _, _ => none

/-- Whether a chain of expressions ends in front of the token. -/
def endsChain (look : Look) : Bool :=
  match look.separator?, look with
  | some (.closing _), _ | some .list, _ | none, none => true
  | _, _ => false

namespace Work

/-- Look at one more token. -/
def step (s : Setting) (w : Work) (look : Look) : Step :=
  match w.expect, w.levels with
  | .operand, _ => startOperand s w look
  | .chainStart, _ => startChain s w look
  | .groupStart, _ =>
      if look.separator? = some (.closing .parenthesis) then
        .abandon none (look.diagnostic? s .missingOperand "Empty parentheses") w.depth
      else startChain s w look
  | .callStart, level :: rest =>
      match look.separator?, level.bracket with
      | some (.closing .parenthesis), .call function arguments qualifiers start =>
          closeLevel s level rest look fun closing =>
            .call function arguments qualifiers (start.cover closing)
      | _, _ => startChain s w look
  | .chainNext, level :: rest =>
      if endsChain look then finishChain s level rest w.last look else startOperand s w look
  | .elementStart, level :: rest =>
      if look.separator? = some (.closing .bracket) then closeTable s level rest look []
      else startOperand s w look
  | .fieldStart, level :: rest =>
      if look.separator? = some (.closing .brace) then closeRecord s level rest look []
      else fieldName level rest
  | .fieldName, level :: rest => fieldName level rest
  | .colon, level :: _ =>
      match look.separator?, look, level.bracket with
      | some .colon, some t, _ => .next (w.advance t .operand)
      | _, _, .record _ name _ =>
          .abandon none
            (look.diagnostic? s .unexpectedToken
              ("Expected ':' after field '" ++ name ++ "', found " ++ look.describe)) w.depth
      | _, _, _ => startOperand s w look
  | .named name quoted span, _ =>
      match opensCall? look with
      | some t => .next (w.openBracket t (.call name [] [] span) .callStart)
      | none => stepMember s w (reference name quoted span) look
  | .primary e, _ => stepMember s w e look
  | .memberName base separator separatorSpan, _ =>
      match look.identifier? with
      | some (t, name) =>
          .next (w.advance t (.memberRead base separator separatorSpan name t.span))
      | none =>
          .abandon none
            (look.diagnostic? s .missingOperand
              ("Expected a name after '" ++ separator.spelling ++ "', found " ++ look.describe))
            w.depth
  | .memberRead base separator separatorSpan name nameSpan, _ =>
      let accessed :=
        accessMember base ⟨separator, name, separatorSpan.cover nameSpan⟩ nameSpan
      match opensCall? look, qualifiers? base with
      | some t, some qualifiers =>
          if separator = .dot then
            .next (w.openBracket t (.call name [] qualifiers base.span) .callStart)
          else stepMember s w accessed look
      | _, _ => stepMember s w accessed look
  | .suffixed e, _ => stepSuffix s w e look
  | .callStart, [] | .chainNext, [] | .elementStart, [] | .fieldStart, [] | .fieldName, []
  | .colon, [] => startOperand s w look
where
  /-- The name of a field has to come. -/
  fieldName (level : Level) (rest : List Level) : Step :=
    match look.identifier?, level.bracket with
    | some (t, name), .record fields _ _ =>
        nextPart level rest t (.record fields name t.span) .colon
    | _, _ =>
        .abandon none
          (look.diagnostic? s .unexpectedToken
            ("Expected a field name, found " ++ look.describe)) w.depth

end Work

end FormulaLint
