import FormulaLint.Parser.Formula

/-!
# The grammar of formulas

A formula is a series of clauses with chaining separators between them.  A clause is an expression
of a stratified grammar: nine levels of binary operators, the loosest first, then operands with
prefix operators, percent signs, member names, and the primaries inside.  The grammar is given as
a relation between a phrase, which carries its tree, and the tokens it is made of; it knows nothing
of the parser.

Main results:

- Theorem {lit}`Derives.of_le`: an expression of a tighter level is one of every looser level.
- Theorem {lit}`Derives.binary`: the three groupings of binary operators under one rule.
- Theorem {lit}`Derives.clauses_induct`: induction over the clauses of a chain.
-/

namespace FormulaLint

/-! ## Trees of tokens -/

/-- The level of an operand with its prefix operators, tighter than every binary operator. -/
def operandLevel : Nat := 9

/-- The range from the first of some tokens to the last one. -/
def tokensSpan (tokens : List Token) : Span :=
  match tokens.head?, tokens.getLast? with
  | some first, some last => first.span.cover last.span
  | _, _ => default

/-- The tree of a chain made of the given tokens: a single clause stands for itself. -/
def chainTree (clauses : List Expr) (tokens : List Token) : Expr :=
  match clauses with
  | [only] => only
  | several => .chain several (tokensSpan tokens)

namespace Token

/-- The literal for which a token stands. -/
def literal? (t : Token) : Option Literal :=
  match t.payload with
  | .logical value => some (.logical value)
  | .text value => some (.text value)
  | .number text =>
      match numberValue text with
      | .ok value => some (.number value text)
      | .error _ => none
  | _ => none

/-- Whether a token separates the clauses of a chain. -/
def Chains (t : Token) : Prop :=
  t.payload = .separator .chaining

/-- Whether a token separates the items of a list. -/
def Lists (t : Token) : Prop :=
  t.payload = .separator .list

/-- Whether a token opens a delimiter. -/
def Opens (t : Token) (delimiter : Delimiter) : Prop :=
  t.payload = .separator (.opening delimiter)

/-- Whether a token closes a delimiter. -/
def Closes (t : Token) (delimiter : Delimiter) : Prop :=
  t.payload = .separator (.closing delimiter)

end Token

/-! ## Phrases and their derivations -/

/-- A syntactic category together with the tree, or the trees, of a phrase of that category. -/
inductive Phrase where
  /-- A literal, a name, a call, or something between delimiters. -/
  | primary (e : Expr)
  /-- A primary with any number of member names behind it. -/
  | member (e : Expr)
  /-- A primary with its members and any number of percent signs behind them. -/
  | suffixed (e : Expr)
  /-- An expression whose operators stand on the given level or on tighter ones. -/
  | level (n : Nat) (e : Expr)
  /-- Expressions with one chaining separator between each two. -/
  | clauses (es : List Expr)
  /-- A chain between delimiters, where one separator may follow the last clause. -/
  | chain (e : Expr)
  /-- The arguments of a call. -/
  | arguments (es : List Expr)
  /-- The elements of a table. -/
  | elements (es : List Expr)
  /-- The fields of a record. -/
  | fields (fs : List Field)

/-- The tokens that make up a phrase. -/
inductive Derives : Phrase → List Token → Prop where
  | literal {t : Token} {l : Literal} (h : t.literal? = some l) :
      Derives (.primary (.literal l t.span)) [t]
  | name {t : Token} {name : String} {quoted : Bool} (h : t.payload = .identifier name quoted) :
      Derives (.primary (reference name quoted t.span)) [t]
  | global {t : Token} {name : String} (h : t.payload = .global name) :
      Derives (.primary (.name (.global name) t.span [] t.span)) [t]
  | field {t : Token} {source name : String} (h : t.payload = .field source name) :
      Derives (.primary (.name (.field source name) t.span [] t.span)) [t]
  | call {t opening closing : Token} {name : String} {quoted : Bool} {es : List Expr}
      {ts : List Token} (hname : t.payload = .identifier name quoted)
      (hopening : opening.Opens .parenthesis) (harguments : Derives (.arguments es) ts)
      (hclosing : closing.Closes .parenthesis) :
      Derives (.primary (.call name es [] (t.span.cover closing.span)))
        (t :: opening :: (ts ++ [closing]))
  | group {opening closing : Token} {e : Expr} {ts : List Token}
      (hopening : opening.Opens .parenthesis) (hchain : Derives (.chain e) ts)
      (hclosing : closing.Closes .parenthesis) :
      Derives (.primary e) (opening :: (ts ++ [closing]))
  | record {opening closing : Token} {fs : List Field} {ts : List Token}
      (hopening : opening.Opens .brace) (hfields : Derives (.fields fs) ts)
      (hclosing : closing.Closes .brace) :
      Derives (.primary (.record fs (opening.span.cover closing.span)))
        (opening :: (ts ++ [closing]))
  | table {opening closing : Token} {es : List Expr} {ts : List Token}
      (hopening : opening.Opens .bracket) (helements : Derives (.elements es) ts)
      (hclosing : closing.Closes .bracket) :
      Derives (.primary (.table es (opening.span.cover closing.span)))
        (opening :: (ts ++ [closing]))
  | bare {e : Expr} {ts : List Token} (h : Derives (.primary e) ts) : Derives (.member e) ts
  | access {e : Expr} {ts : List Token} {separator t : Token} {op : Operator} {name : String}
      {quoted : Bool} (hbase : Derives (.member e) ts) (hliteral : e.isLiteral = false)
      (hop : op = .dot ∨ op = .notSign) (hseparator : separator.payload = .operator op)
      (hname : t.payload = .identifier name quoted) :
      Derives (.member (accessMember e ⟨op, name, separator.span.cover t.span⟩ t.span))
        (ts ++ [separator, t])
  | qualifiedCall {e : Expr} {ts inner : List Token} {qualifiers : List String}
      {point t opening closing : Token} {name : String} {quoted : Bool} {es : List Expr}
      (hbase : Derives (.member e) ts) (hqualifiers : qualifiers? e = some qualifiers)
      (hpoint : point.payload = .operator .dot) (hname : t.payload = .identifier name quoted)
      (hopening : opening.Opens .parenthesis) (harguments : Derives (.arguments es) inner)
      (hclosing : closing.Closes .parenthesis) :
      Derives (.member (.call name es qualifiers (e.span.cover closing.span)))
        (ts ++ point :: t :: opening :: (inner ++ [closing]))
  | unsuffixed {e : Expr} {ts : List Token} (h : Derives (.member e) ts) :
      Derives (.suffixed e) ts
  | percent {e : Expr} {ts : List Token} {t : Token} (he : Derives (.suffixed e) ts)
      (ht : t.payload = .operator .percent) :
      Derives (.suffixed (.unary .percent e (e.span.cover t.span))) (ts ++ [t])
  | operand {e : Expr} {ts : List Token} (h : Derives (.suffixed e) ts) :
      Derives (.level operandLevel e) ts
  | unary {op : Operator} {e : Expr} {t : Token} {ts : List Token}
      (hop : op.isPrefix = true) (ht : t.payload = .operator op)
      (he : Derives (.level operandLevel e) ts) :
      Derives (.level operandLevel (.unary op e (t.span.cover e.span))) (t :: ts)
  | looser {n : Nat} {e : Expr} {ts : List Token} (h : Derives (.level (n + 1) e) ts) :
      Derives (.level n e) ts
  | leftGrouped {op : Operator} {n : Nat} {l r : Expr} {ts ts' : List Token} {t : Token}
      (hop : op.binding? = some (n, .left)) (hl : Derives (.level n l) ts)
      (ht : t.payload = .operator op) (hr : Derives (.level (n + 1) r) ts') :
      Derives (.level n (.binary op l r (l.span.cover r.span))) (ts ++ t :: ts')
  | rightGrouped {op : Operator} {n : Nat} {l r : Expr} {ts ts' : List Token} {t : Token}
      (hop : op.binding? = some (n, .right)) (hl : Derives (.level (n + 1) l) ts)
      (ht : t.payload = .operator op) (hr : Derives (.level n r) ts') :
      Derives (.level n (.binary op l r (l.span.cover r.span))) (ts ++ t :: ts')
  | ungrouped {op : Operator} {n : Nat} {l r : Expr} {ts ts' : List Token} {t : Token}
      (hop : op.binding? = some (n, .none)) (hl : Derives (.level (n + 1) l) ts)
      (ht : t.payload = .operator op) (hr : Derives (.level (n + 1) r) ts') :
      Derives (.level n (.binary op l r (l.span.cover r.span))) (ts ++ t :: ts')
  | firstClause {e : Expr} {ts : List Token} (h : Derives (.level 0 e) ts) :
      Derives (.clauses [e]) ts
  | nextClause {es : List Expr} {e : Expr} {ts ts' : List Token} {t : Token}
      (hes : Derives (.clauses es) ts) (ht : t.Chains) (he : Derives (.level 0 e) ts') :
      Derives (.clauses (es ++ [e])) (ts ++ t :: ts')
  | chain {es : List Expr} {ts : List Token} (h : Derives (.clauses es) ts) :
      Derives (.chain (chainTree es ts)) ts
  | trailedChain {es : List Expr} {ts : List Token} {t : Token} (h : Derives (.clauses es) ts)
      (ht : t.Chains) : Derives (.chain (chainTree es (ts ++ [t]))) (ts ++ [t])
  | noArguments : Derives (.arguments []) []
  | firstArgument {e : Expr} {ts : List Token} (h : Derives (.chain e) ts) :
      Derives (.arguments [e]) ts
  | nextArgument {es : List Expr} {e : Expr} {ts ts' : List Token} {t : Token}
      (hes : Derives (.arguments es) ts) (hne : es ≠ []) (ht : t.Lists)
      (he : Derives (.chain e) ts') : Derives (.arguments (es ++ [e])) (ts ++ t :: ts')
  | noElements : Derives (.elements []) []
  | firstElement {e : Expr} {ts : List Token} (h : Derives (.level 0 e) ts) :
      Derives (.elements [e]) ts
  | nextElement {es : List Expr} {e : Expr} {ts ts' : List Token} {t : Token}
      (hes : Derives (.elements es) ts) (hne : es ≠ []) (ht : t.Lists)
      (he : Derives (.level 0 e) ts') : Derives (.elements (es ++ [e])) (ts ++ t :: ts')
  | noFields : Derives (.fields []) []
  | firstField {e : Expr} {ts : List Token} {t colon : Token} {name : String} {quoted : Bool}
      (hname : t.payload = .identifier name quoted) (hcolon : colon.payload = .separator .colon)
      (he : Derives (.level 0 e) ts) :
      Derives (.fields [.mk name e (t.span.cover e.span)]) (t :: colon :: ts)
  | nextField {fs : List Field} {e : Expr} {ts ts' : List Token} {separator t colon : Token}
      {name : String} {quoted : Bool} (hfs : Derives (.fields fs) ts) (hne : fs ≠ [])
      (hseparator : separator.Lists) (hname : t.payload = .identifier name quoted)
      (hcolon : colon.payload = .separator .colon) (he : Derives (.level 0 e) ts') :
      Derives (.fields (fs ++ [.mk name e (t.span.cover e.span)]))
        (ts ++ separator :: t :: colon :: ts')

/-- The tokens that make up a series of clauses: expressions with one or more chaining separators
between each two, and any number of separators in front and behind. -/
inductive Series : List Token → List Expr → Prop where
  | nil : Series [] []
  | separator {t : Token} {ts : List Token} {es : List Expr} (ht : t.Chains) (h : Series ts es) :
      Series (t :: ts) es
  | last {e : Expr} {ts : List Token} (h : Derives (.level 0 e) ts) : Series ts [e]
  | clause {e : Expr} {t : Token} {ts rest : List Token} {es : List Expr}
      (he : Derives (.level 0 e) ts) (ht : t.Chains) (h : Series rest es) :
      Series (ts ++ t :: rest) (e :: es)

/-! ## Levels -/

/-- The loosest level that the operand in front of a binary operator takes. -/
def leftFloor (level : Nat) : Associativity → Nat
  | .left => level
  | .right | .none => level + 1

namespace Operator

/-- Every binary operator binds looser than a prefix operator. -/
theorem binding_lt {op : Operator} {n : Nat} {g : Associativity}
    (h : op.binding? = some (n, g)) : n < operandLevel := by
  cases op <;> simp only [binding?, Option.some.injEq, Prod.mk.injEq, reduceCtorEq] at h <;>
    simp only [operandLevel] <;> omega

/-- The operators of one level group alike. -/
theorem grouping_eq {op op' : Operator} {n : Nat} {g g' : Associativity}
    (h : op.binding? = some (n, g)) (h' : op'.binding? = some (n, g')) : g = g' := by
  cases op <;> simp only [binding?, Option.some.injEq, Prod.mk.injEq, reduceCtorEq] at h <;>
    obtain ⟨rfl, rfl⟩ := h <;> cases op' <;>
    simp only [binding?, Option.some.injEq, Prod.mk.injEq, reduceCtorEq, Nat.reduceEqDiff,
      false_and, true_and] at h' <;> exact h'

end Operator

/-- Both operands of a binary operator bind no looser than a prefix operator. -/
theorem rightFloor_le_operandLevel {op : Operator} {n : Nat} {g : Associativity}
    (h : op.binding? = some (n, g)) : rightFloor n g ≤ operandLevel := by
  have hlt := Operator.binding_lt h
  cases g <;> simp only [rightFloor] <;> omega

/-- The operand in front of an operator takes the operator's own level at the loosest. -/
theorem le_leftFloor (n : Nat) (g : Associativity) : n ≤ leftFloor n g := by
  cases g <;> simp [leftFloor]

/-- The operand in front of an operator takes the level above at the tightest. -/
theorem leftFloor_le_succ (n : Nat) (g : Associativity) : leftFloor n g ≤ n + 1 := by
  cases g <;> simp [leftFloor]

/-- The operand behind an operator takes the operator's own level at the loosest. -/
theorem le_rightFloor (n : Nat) (g : Associativity) : n ≤ rightFloor n g := by
  cases g <;> simp [rightFloor]

namespace Derives

/-- An expression of a tighter level is one of every looser level. -/
theorem of_le {n m : Nat} {e : Expr} {ts : List Token} (hle : m ≤ n)
    (h : Derives (.level n e) ts) : Derives (.level m e) ts := by
  induction hle with
  | refl => exact h
  | step _ ih => exact ih h.looser

/-- The three groupings of binary operators under one rule: each operand takes its floor. -/
theorem binary {op : Operator} {n : Nat} {g : Associativity} {l r : Expr} {ts ts' : List Token}
    {t : Token} (hop : op.binding? = some (n, g)) (hl : Derives (.level (leftFloor n g) l) ts)
    (ht : t.payload = .operator op) (hr : Derives (.level (rightFloor n g) r) ts') :
    Derives (.level n (.binary op l r (l.span.cover r.span))) (ts ++ t :: ts') := by
  cases g with
  | left => exact leftGrouped hop hl ht hr
  | right => exact rightGrouped hop hl ht hr
  | none => exact ungrouped hop hl ht hr

/-- Induction over the clauses of a chain. -/
theorem clauses_induct
    {motive : (es : List Expr) → (ts : List Token) → Derives (.clauses es) ts → Prop}
    (first : ∀ {e ts} (he : Derives (.level 0 e) ts), motive [e] ts (.firstClause he))
    (next : ∀ {es ts t e ts'} (hes : Derives (.clauses es) ts) (ht : t.Chains)
      (he : Derives (.level 0 e) ts'), motive es ts hes →
        motive (es ++ [e]) (ts ++ t :: ts') (.nextClause hes ht he))
    {es : List Expr} {ts : List Token} (h : Derives (.clauses es) ts) : motive es ts h := by
  have hall : ∀ phrase ts, Derives phrase ts → ∀ es (h : Derives (.clauses es) ts),
      phrase = .clauses es → motive es ts h := by
    intro phrase ts hderives
    induction hderives with
    | firstClause he =>
        rintro es h ⟨⟩
        exact first he
    | nextClause hes ht he ih _ =>
        rintro es h ⟨⟩
        exact next hes ht he (ih _ hes rfl)
    | _ => rintro es h ⟨⟩
  exact hall _ ts h es h rfl

end Derives

/-! ## Spans of chains -/

/-- The first of some tokens stands at the given place. -/
def StartsAt (span : Span) (ts : List Token) : Prop :=
  ∃ t rest, ts = t :: rest ∧ span = t.span

/-- Tokens behind do not change where tokens start. -/
theorem StartsAt.append {span : Span} {ts : List Token} (h : StartsAt span ts)
    (more : List Token) : StartsAt span (ts ++ more) := by
  rcases h with ⟨t, rest, rfl, hspan⟩
  exact ⟨t, rest ++ more, rfl, hspan⟩

/-- Where tokens start is where the first of them start. -/
theorem StartsAt.of_append {span : Span} {ts more : List Token} (h : StartsAt span (ts ++ more))
    (hne : ts ≠ []) : StartsAt span ts := by
  rcases List.exists_cons_of_ne_nil hne with ⟨t, rest, rfl⟩
  rcases h with ⟨t', rest', heq, hspan⟩
  rcases List.cons.inj heq with ⟨rfl, -⟩
  exact ⟨t, rest, rfl, hspan⟩

/-- The expression of a finished chain is the tree of its tokens. -/
theorem chainExpr_eq {level : Level} {last : Span} {ts : List Token}
    (hstart : StartsAt level.chainStart ts) (hlast : ∀ t, ts.getLast? = some t → last = t.span) :
    chainExpr level last = chainTree level.clauses ts := by
  rcases hstart with ⟨t, rest, rfl, hspan⟩
  have hspans : level.chainStart.cover last = tokensSpan (t :: rest) := by
    obtain ⟨t', ht'⟩ : ∃ t', (t :: rest).getLast? = some t' :=
      ⟨_, List.getLast?_eq_some_getLast (List.cons_ne_nil t rest)⟩
    rw [hspan, hlast t' ht']
    simp only [tokensSpan, List.head?_cons, ht']
  rcases hclauses : level.clauses with _ | ⟨only, _ | ⟨second, others⟩⟩ <;>
    simp only [chainExpr, chainTree, hclauses, hspans]

end FormulaLint
