import FormulaLint.Proofs.Forms.Canonical

/-!
# How canonical forms start

What an expression shows starts with an expression that has no members.  The first character tells
whether that is a number, a text, something between delimiters or something that starts with a name,
and in the last case what stands behind the name tells the rest.

Main results:

- Theorem {lit}`Expr.exists_primary`: what an expression starts with.
- Theorem {lit}`Expr.exists_opening`: the first character of an expression without members.
- Theorem {lit}`Expr.exists_word` and {lit}`Expr.eq_ofWord`: expressions that start with a name.
- Theorem {lit}`Expr.signText_ne`: no operand starts like an operator in front of one.
-/

namespace FormulaLint

namespace Expr

/-! ## Members and what they are accessed of -/

/-- Whether an expression has no members and is no chain. -/
def isPrimary : Expr → Bool
  | name _ _ members _ => members.isEmpty
  | member _ _ _ | chain _ _ | hole => false
  | _ => true

/-- An expression without its members. -/
def core : Expr → Expr
  | name identifier identifierSpan _ span => name identifier identifierSpan [] span
  | member base _ _ => base
  | e => e

/-- The members that an expression ends with. -/
def members : Expr → List Segment
  | name _ _ members _ | member _ members _ => members
  | _ => []

section

variable {e e' : Expr}

/-- An expression is written as what its members are accessed of, and them. -/
theorem dumpChars_core (e : Expr) : e.dumpChars = e.core.dumpChars ++ chainText e.members := by
  cases e <;> simp [core, members, dumpChars, chainText]

/-- What is neither a chain nor a reference has no members. -/
theorem isPrimary_of_base (h : e.Showable) (hreference : e.isReference = false)
    (hchain : e.isChain = false) : e.isPrimary = true := by
  cases e with
  | name _ _ _ _ | member _ _ _ => simp [isReference] at hreference
  | chain _ _ => simp [isChain] at hchain
  | hole => exact absurd h id
  | _ => rfl

/-- The members of what can be shown, and what they are accessed of. -/
theorem Every.core (h : e.Every Showable) (hchain : e.isChain = false) :
    e.core.Every Showable ∧ e.core.isPrimary = true ∧ MembersAccessed e.members ∧
      e.members.map Segment.form = e.members := by
  rcases every_iff.mp h with ⟨hshape, hchildren⟩
  cases e with
  | name identifier identifierSpan members span =>
      rcases hshape with ⟨hspan, hplace, hcanonical, hmembers, hforms⟩
      have hcore : (name identifier identifierSpan [] span).Every Showable :=
        every_iff.mpr ⟨⟨hspan, hplace, hcanonical, by simp [MembersAccessed], rfl⟩,
          by simp [children]⟩
      exact ⟨hcore, rfl, hmembers, hforms⟩
  | member base members span =>
      rcases hshape with ⟨-, hreference, hbase, -, hmembers, hforms⟩
      have hshown := hchildren base (by simp [children])
      exact ⟨hshown, isPrimary_of_base (every_iff.mp hshown).1 hreference hbase, hmembers, hforms⟩
  | chain _ _ => simp [isChain] at hchain
  | hole => exact absurd hshape id
  | _ => exact ⟨h, rfl, by simp [members, MembersAccessed], rfl⟩

/-- Members and what they are accessed of make up an expression. -/
theorem Showable.eq_of_core (h : e.Showable) (h' : e'.Showable) (hcore : e.core = e'.core)
    (hmembers : e.members = e'.members) : e = e' := by
  -- an expression with members is put together from the two
  have hjoin : ∀ d : Expr, d.Showable → d =
      if d.members.isEmpty then d.core else d.core.access d.members := by
    intro d hd
    cases d with
    | name identifier identifierSpan own span => cases own <;> rfl
    | member base own span =>
        rcases hd with ⟨rfl, hreference, -, hne, -⟩
        rw [members, core, List.isEmpty_eq_false_iff.mpr hne]
        cases base with
        | name _ _ _ _ | member _ _ _ => simp [isReference] at hreference
        | _ => rfl
    | _ => rfl
  rw [hjoin e h, hjoin e' h', hcore, hmembers]

end

/-! ## First characters -/

/-- What the first character of an expression shows. -/
inductive Opening where
  | number
  | text
  | word
  | bracket
  | brace
  | parenthesis
deriving DecidableEq, Repr

/-- What a first character shows. -/
def Opening.ofChar (c : Char) : Opening :=
  if c.isDigit then number
  else if c = '"' then text
  else if c = '[' then bracket
  else if c = '\x7b' then brace
  else if c = '(' then parenthesis
  else word

/-- What the first character of an expression without members shows. -/
def opening : Expr → Opening
  | literal (.number _ _) _ => .number
  | literal (.text _) _ => .text
  | name (.global _) _ _ _ | table _ _ => .bracket
  | record _ _ => .brace
  | unary _ _ _ | binary _ _ _ _ => .parenthesis
  | _ => .word

/-- Whether an expression may start with a character. -/
def StartsExpr (c : Char) : Prop :=
  c.isDigit = true ∨ (c = '\'' ∨ Text.isIdentifierStart c = true) ∨ c ∈ ['"', '[', '\x7b', '(']

/-- Characters that start no expression. -/
theorem StartsExpr.ne {c d : Char} (h : StartsExpr c) (hd : d ∈ [')', ']', '@', '-', '!']) :
    c ≠ d := by
  have hall : ∀ d ∈ [')', ']', '@', '-', '!'], d.isDigit = false ∧ d ≠ '\'' ∧
      Text.isIdentifierStart d = false ∧ d ∉ ['"', '[', '\x7b', '('] := by
    simp only [List.forall_mem_cons, List.not_mem_nil, false_implies, implies_true, and_true]
    decide
  rcases hall d hd with ⟨hdigit, hquote, hstart, hopen⟩
  rcases h with h | h | h
  · rintro rfl
    simp [hdigit] at h
  · exact ne_of_start h hquote hstart
  · rintro rfl
    exact hopen h

/-- A name starts neither a number nor anything between delimiters. -/
theorem ofChar_of_start {c : Char} (h : c = '\'' ∨ Text.isIdentifierStart c = true) :
    Opening.ofChar c = .word := by
  have hdigit : c.isDigit = false := by
    rcases h with rfl | h
    · decide
    · cases hdigit : c.isDigit with
      | false => rfl
      | true => simp [not_isIdentifierStart_of_isDigit hdigit] at h
  have htext : c ≠ '"' := ne_of_start h (by decide) (by decide)
  have hbracket : c ≠ '[' := ne_of_start h (by decide) (by decide)
  have hbrace : c ≠ '\x7b' := ne_of_start h (by decide) (by decide)
  have hparenthesis : c ≠ '(' := ne_of_start h (by decide) (by decide)
  simp [Opening.ofChar, hdigit, htext, hbracket, hbrace, hparenthesis]

end Expr

/-- What is read as a name starts like one. -/
theorem ReadsName.exists_start {text : List Char} {name : String} {quoted : Bool}
    (h : ReadsName text name quoted) :
    ∃ c cs, text = c :: cs ∧ (c = '\'' ∨ Text.isIdentifierStart c = true) := by
  have hread := h [] fun c hc => by simp at hc
  rw [List.append_nil] at hread
  cases text with
  | nil => simp [name?] at hread
  | cons c cs =>
      refine ⟨c, cs, rfl, ?_⟩
      by_cases hquote : c = '\''
      · exact Or.inl hquote
      · cases hstart : Text.isIdentifierStart c with
        | true => exact Or.inr rfl
        | false => simp [name?, hquote, hstart] at hread

/-! ## Expressions that start with a name -/

/-- What stands behind the name that an expression starts with: nothing, a field of that source, or
more of a function name and the arguments. -/
inductive WordTail where
  | nothing
  | field (name : String)
  | call (parts : List String) (arguments : List Expr)

/-- The text of what stands behind a name. -/
def WordTail.text : WordTail → List Char
  | nothing => []
  | field name => '[' :: '@' :: (nameText name ++ [']'])
  | call parts arguments =>
      calleeRest parts ++ '(' :: ([',', ' '].intercalate (arguments.map Expr.dumpChars) ++ [')'])

/-- What stands behind a name ends it. -/
theorem WordTail.endsWord (tail : WordTail) {rest : List Char} (h : EndsPrimary rest) :
    EndsWord (tail.text ++ rest).head? := by
  cases tail with
  | nothing => exact h.endsWord
  | field name => exact endsWord_some (by decide) (by decide)
  | call parts arguments =>
      rw [WordTail.text, List.append_assoc]
      exact calleeRest_cases parts _

namespace Expr

/-- The name that an expression starts with, whether it is written between quotes, and what stands
behind it. -/
def word : Expr → Option (String × Bool × WordTail)
  | literal (.logical value) _ => some (if value then "true" else "false", false, .nothing)
  | name (.plain own) _ _ _ => some (own, needsQuotes own, .nothing)
  | name (.field source own) _ _ _ => some (source, needsQuotes source, .field own)
  | call function arguments qualifiers _ =>
      match qualifiers ++ [function] with
      | first :: parts => some (first, calleeQuoted first, .call parts arguments)
      | [] => none
  | _ => none

section

variable {e e' : Expr}

/-- An expression that starts with a name is that name and what stands behind it. -/
theorem exists_word (h : e.Showable) (hprimary : e.isPrimary = true) (hopening : e.opening = .word) :
    ∃ text name quoted tail, e.word = some (name, quoted, tail) ∧
      e.dumpChars = text ++ tail.text ∧ ReadsName text name quoted := by
  cases e with
  | literal value span =>
      cases value with
      | logical value =>
          refine ⟨_, _, _, .nothing, rfl, (List.append_nil _).symm, ?_⟩
          cases value <;> exact readsName_plain (by decide)
      | number _ _ | text _ => simp [opening] at hopening
  | name identifier identifierSpan members span =>
      obtain rfl : members = [] := by simpa [isPrimary] using hprimary
      rcases h with ⟨-, -, hcanonical, -⟩
      cases identifier with
      | plain name =>
          exact ⟨nameText name, name, _, .nothing, rfl, rfl, readsName_nameText name⟩
      | context name => simp [Identifier.canonical] at hcanonical
      | global name => simp [opening] at hopening
      | field source name =>
          have hsource : source.isEmpty = false := by
            cases hempty : source.isEmpty with
            | false => rfl
            | true => simp [Identifier.canonical, hempty] at hcanonical
          refine ⟨nameText source, source, _, .field name, rfl, ?_, readsName_nameText source⟩
          simp [dumpChars, Identifier.render, hsource, chainText, WordTail.text]
  | call function arguments qualifiers span =>
      rcases exists_calleeText_eq qualifiers function with ⟨first, parts, hparts, htext⟩
      refine ⟨calleePartText first, first, calleeQuoted first, .call parts arguments, ?_, ?_,
        readsName_calleePartText first⟩
      · simp only [word, hparts]
      · rw [dumpChars, dumpAll_eq_map, htext, WordTail.text, List.append_assoc]
  | member _ _ _ | chain _ _ | hole => simp [isPrimary] at hprimary
  | record _ _ | table _ _ | unary _ _ _ | binary _ _ _ _ => simp [opening] at hopening

/-- The expression without members that starts with a name and goes on with what stands behind
it. -/
def ofWord (first : String) (quoted : Bool) : WordTail → Expr
  | .nothing =>
      if quoted = false ∧ first = "true" then literal (.logical true) default
      else if quoted = false ∧ first = "false" then literal (.logical false) default
      else name (.plain first) default [] default
  | .field own => name (.field first own) default [] default
  | .call parts arguments =>
      call ((first :: parts).getLast (by simp)) arguments (first :: parts).dropLast default

/-- The name and what stands behind it make up an expression without members. -/
theorem eq_ofWord (h : e.Showable) (hprimary : e.isPrimary = true) {first : String} {quoted : Bool}
    {tail : WordTail} (hword : e.word = some (first, quoted, tail)) :
    e = ofWord first quoted tail := by
  cases e with
  | literal value span =>
      rcases h with ⟨rfl, -⟩
      cases value with
      | logical value =>
          obtain ⟨rfl, rfl, rfl⟩ : _ = first ∧ _ = quoted ∧ _ = tail := by
            simpa only [word, Option.some.injEq, Prod.mk.injEq] using hword
          cases value <;> rfl
      | number _ _ | text _ => simp [word] at hword
  | name identifier identifierSpan members span =>
      obtain rfl : members = [] := by simpa [isPrimary] using hprimary
      rcases h with ⟨rfl, rfl, -⟩
      cases identifier with
      | plain own =>
          obtain ⟨rfl, rfl, rfl⟩ : own = first ∧ needsQuotes own = quoted ∧ .nothing = tail := by
            simpa only [word, Option.some.injEq, Prod.mk.injEq] using hword
          -- the names of the logical values are written between quotes
          have hreserved : ∀ value ∈ ["true", "false"],
              ¬ (needsQuotes own = false ∧ own = value) := by
            rintro value hvalue ⟨hplain, rfl⟩
            have hquotes : ∀ value ∈ ["true", "false"], needsQuotes value = true := by decide
            simp [hquotes own hvalue] at hplain
          rw [ofWord, if_neg (hreserved "true" (by simp)), if_neg (hreserved "false" (by simp))]
      | field source own =>
          obtain ⟨rfl, rfl, rfl⟩ : source = first ∧ needsQuotes source = quoted ∧
              .field own = tail := by
            simpa only [word, Option.some.injEq, Prod.mk.injEq] using hword
          rfl
      | context _ | global _ => simp [word] at hword
  | call function arguments qualifiers span =>
      obtain rfl : span = default := h
      rcases exists_calleeText_eq qualifiers function with ⟨own, parts, hparts, -⟩
      obtain ⟨rfl, rfl, rfl⟩ : own = first ∧ calleeQuoted own = quoted ∧
          .call parts arguments = tail := by
        simpa only [word, hparts, Option.some.injEq, Prod.mk.injEq] using hword
      simp [ofWord, ← hparts]
  | member _ _ _ | chain _ _ | hole => simp [isPrimary] at hprimary
  | record _ _ | table _ _ | unary _ _ _ | binary _ _ _ _ => simp [word] at hword

/-! ## What expressions start with -/

/-- The text of a number that can be shown. -/
theorem Showable.dumpChars_number {number : Number} {written : String} {span : Span}
    (h : (literal (.number number written) span).Showable) :
    (literal (.number number written) span).dumpChars = written.toList ∧
      PlainNumeral written.toList := by
  have hplain : PlainNumeral written.toList := h.2.2 number written rfl
  refine ⟨?_, hplain⟩
  have hpoint : (fun c : Char => if c = '.' then '.' else c) = id := by
    funext c
    by_cases hc : c = '.' <;> simp [hc]
  rw [dumpChars, Literal.render, numberText_eq hplain.numeral.ne_nil, hplain.plainNumber_eq, hpoint,
    List.map_id]

/-- An operator as it is written in front of its operand. -/
def signText (op : Operator) : List Char :=
  op.spelling.toList ++ if op = .notWord then [' '] else []

/-- The text of an operation with its operator in front. -/
theorem dumpChars_sign {op : Operator} (hop : op.isPrefix = true) (operand : Expr) (span : Span) :
    (unary op operand span).dumpChars = '(' :: (signText op ++ (operand.dumpChars ++ [')'])) := by
  cases op <;> simp [Operator.isPrefix] at hop <;>
    simp [dumpChars, Operator.isPostfix, signText]

/-- The first character of an expression without members shows what it is. -/
theorem exists_opening (h : e.Showable) (hprimary : e.isPrimary = true) :
    ∃ c cs, e.dumpChars = c :: cs ∧ Opening.ofChar c = e.opening ∧ StartsExpr c := by
  have hworded : e.opening = .word →
      ∃ c cs, e.dumpChars = c :: cs ∧ Opening.ofChar c = e.opening ∧ StartsExpr c := by
    intro hopening
    rcases exists_word h hprimary hopening with ⟨text, name, quoted, tail, -, htext, hreads⟩
    rcases hreads.exists_start with ⟨c, cs, rfl, hc⟩
    exact ⟨c, _, htext, by rw [hopening, ofChar_of_start hc], Or.inr (Or.inl hc)⟩
  have hdelimited : ∀ {c : Char} {cs : List Char}, c ∈ ['"', '[', '\x7b', '('] →
      Opening.ofChar c = e.opening → e.dumpChars = c :: cs →
        ∃ c cs, e.dumpChars = c :: cs ∧ Opening.ofChar c = e.opening ∧ StartsExpr c :=
    fun hc hopening htext => ⟨_, _, htext, hopening, Or.inr (Or.inr hc)⟩
  cases e with
  | literal value span =>
      cases value with
      | logical value => exact hworded rfl
      | text value => exact hdelimited (by decide) (by rfl) rfl
      | number number written =>
          rcases h.dumpChars_number with ⟨htext, hplain⟩
          rcases hplain.exists_digit with ⟨d, ds, hdigits, hd⟩
          exact ⟨d, ds, by rw [htext, hdigits], by simp [Opening.ofChar, hd, opening], Or.inl hd⟩
  | name identifier identifierSpan members span =>
      cases identifier with
      | global name => exact hdelimited (by decide) (by rfl) rfl
      | plain _ | context _ | field _ _ => exact hworded rfl
  | call _ _ _ _ => exact hworded rfl
  | record _ _ => exact hdelimited (by decide) (by rfl) rfl
  | table _ _ => exact hdelimited (by decide) (by rfl) rfl
  | unary op operand span =>
      rcases h with ⟨-, hop | rfl⟩
      · exact hdelimited (by decide) (by rfl) (dumpChars_sign hop operand span)
      · exact hdelimited (by decide) (by rfl) rfl
  | binary _ _ _ _ => exact hdelimited (by decide) (by rfl) rfl
  | member _ _ _ | chain _ _ | hole => simp [isPrimary] at hprimary

/-- What can be shown starts with an expression without members. -/
theorem exists_primary (h : e.Every Showable) {rest : List Char} (hrest : EndsItem rest) :
    ∃ (first : Expr) (behind : List Char), first.Every Showable ∧ first.isPrimary = true ∧
      EndsPrimary behind ∧ e.dumpChars ++ rest = first.dumpChars ++ behind := by
  rcases List.exists_cons_of_ne_nil (every_iff.mp h).1.clauses_ne_nil with ⟨clause, more, hclauses⟩
  rcases h.clauses clause (by simp [hclauses]) with ⟨hclause, hchain⟩
  rcases hclause.core hchain with ⟨hcore, hprimary, hmembers, -⟩
  have hbehind : EndsItem ((more.flatMap fun c => [';', ' '] ++ c.dumpChars) ++ rest) := by
    cases more with
    | nil => exact hrest
    | cons _ _ => exact endsItem_cons (by decide) _
  refine ⟨clause.core, _, hcore, hprimary, ⟨clause.members, _, hmembers, hbehind, rfl⟩, ?_⟩
  rw [← dumpChars_clauses e, hclauses, intercalate_map_cons, clause.dumpChars_core]
  simp only [List.append_assoc]

/-- The first character of what can be shown. -/
theorem Every.exists_start (h : e.Every Showable) :
    ∃ c cs, e.dumpChars = c :: cs ∧ StartsExpr c := by
  rcases exists_primary h endsItem_nil with ⟨first, behind, hfirst, hprimary, -, htext⟩
  rcases exists_opening (every_iff.mp hfirst).1 hprimary with ⟨c, cs, hchars, -, hc⟩
  rw [List.append_nil, hchars] at htext
  exact ⟨c, _, htext, hc⟩

/-- A word for an operator that is a name, and not one of a function, is written between quotes. -/
theorem quoted_of_operatorWord {first : String} {quoted : Bool} {tail : WordTail}
    (hword : e.word = some (first, quoted, tail)) (hoperator : first ∈ operatorWords)
    (htail : ∀ parts arguments, tail ≠ .call parts arguments) : quoted = true := by
  have hquotes : ∀ name ∈ operatorWords, needsQuotes name = true := by decide
  have hvalues : ∀ value : Bool, (if value then "true" else "false") ∉ operatorWords := by decide
  unfold word at hword
  split at hword
  · rename_i value _
    obtain ⟨rfl, -⟩ := Prod.mk.inj (Option.some.inj hword)
    exact absurd hoperator (hvalues value)
  · obtain ⟨rfl, hrest⟩ := Prod.mk.inj (Option.some.inj hword)
    rw [← (Prod.mk.inj hrest).1, hquotes _ hoperator]
  · obtain ⟨rfl, hrest⟩ := Prod.mk.inj (Option.some.inj hword)
    rw [← (Prod.mk.inj hrest).1, hquotes _ hoperator]
  · split at hword
    · obtain ⟨-, hrest⟩ := Prod.mk.inj (Option.some.inj hword)
      exact absurd (Prod.mk.inj hrest).2.symm (htail _ _)
    · simp at hword
  · simp at hword

/-- No expression without members is a word for an operator with a blank behind it: a name would be
written between quotes, and a function name goes on without a blank. -/
theorem Every.not_ledByWord (h : e.Every Showable) (hprimary : e.isPrimary = true)
    {rest : List Char} (hrest : EndsPrimary rest) : ¬ LedByWord (e.dumpChars ++ rest) := by
  rintro ⟨operator, hoperator, more, heq⟩
  have hshape := (every_iff.mp h).1
  rcases chars_of_isIdentifier (isIdentifier_of_operatorWord hoperator) with ⟨c, cs, hchars, hc, -⟩
  have hopening : e.opening = .word := by
    rcases exists_opening hshape hprimary with ⟨d, ds, hdump, hopening, -⟩
    rw [hdump, hchars] at heq
    rw [← hopening, (List.cons.inj heq).1, ofChar_of_start (Or.inr hc)]
  rcases exists_word hshape hprimary hopening with ⟨text, name, quoted, tail, hword, hdump, hreads⟩
  rw [hdump, List.append_assoc] at heq
  have hblank : EndsWord (' ' :: more).head? := endsWord_some (by decide) (by decide)
  obtain ⟨rfl, rfl, hbehind⟩ := hreads.inj
    (readsName_plain (isIdentifier_of_operatorWord hoperator)) (tail.endsWord hrest) hblank heq
  cases tail with
  | nothing => exact absurd (quoted_of_operatorWord hword hoperator nofun) (by decide)
  | field own => exact absurd (quoted_of_operatorWord hword hoperator nofun) (by decide)
  | call parts arguments => cases parts <;> simp [WordTail.text, calleeRest] at hbehind

/-- No operand starts like an operator in front of one. -/
theorem signText_ne {op : Operator} (hop : op.isPrefix = true) (h : e.Every Showable)
    {rest : List Char} (hrest : EndsItem rest) (more : List Char) :
    signText op ++ more ≠ e.dumpChars ++ rest := by
  rcases h.exists_start with ⟨c, cs, hchars, hc⟩
  have hsign : ∀ sign ∈ [')', ']', '@', '-', '!'], sign :: more ≠ e.dumpChars ++ rest := by
    intro sign hsign heq
    rw [hchars] at heq
    exact hc.ne hsign (List.cons.inj heq).1.symm
  cases op with
  | minus => exact hsign '-' (by simp)
  | notSign => exact hsign '!' (by simp)
  | notWord =>
      intro heq
      rcases exists_primary h hrest with ⟨first, behind, hfirst, hprimary, hbehind, htext⟩
      rw [htext] at heq
      exact hfirst.not_ledByWord hprimary hbehind ⟨"Not", by decide, more, heq.symm⟩
  | _ => simp [Operator.isPrefix] at hop

end

end Expr

end FormulaLint
