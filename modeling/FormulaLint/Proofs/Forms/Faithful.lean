import FormulaLint.Proofs.Forms.Openings

/-!
# Canonical forms tell expressions apart

What canonical forms show of two expressions is the same only if the forms are.  The argument goes
over the parts of an expression: where its parts are told apart, an expression without members is
told from another by its first character and what comes next, members tell the others, and clauses
tell chains.

Main results:

- Theorem {lit}`Expr.tells_primary`: expressions without members, from their parts.
- Theorem {lit}`Expr.tells`: whatever canonical forms show is told apart.
-/

namespace FormulaLint

/-- Whether a text may stand behind an expression that may be a chain. -/
def EndsWhole (rest : List Char) : Prop :=
  EndsItem rest ∧ rest.head? ≠ some ';'

/-- A closing character other than a semicolon may stand behind a chain. -/
theorem endsWhole_cons {c : Char} (hc : c ∈ closingChars) (hne : c ≠ ';') (rest : List Char) :
    EndsWhole (c :: rest) :=
  ⟨endsItem_cons hc rest, by simpa using hne⟩

namespace Expr

/-- What is written for an expression, with something behind it, is not written for another one. -/
def Told (e : Expr) : Prop :=
  Distinct EndsWhole (Every Showable) dumpChars e

section

variable {e e' l l' r r' : Expr} {es es' : List Expr} {rest rest' : List Char}

/-! ## Lists of parts -/

/-- Expressions between delimiters, with commas between each two. -/
theorem told_list {close : Char} (hclose : close ∈ [')', ']']) (hes : ∀ c ∈ es, c.Told)
    (hshown : ∀ c ∈ es, c.Every Showable) (hshown' : ∀ c ∈ es', c.Every Showable)
    (h : [',', ' '].intercalate (es.map dumpChars) ++ close :: rest =
      [',', ' '].intercalate (es'.map dumpChars) ++ close :: rest') : es = es' ∧ rest = rest' := by
  have hall : ∀ c ∈ [')', ']'], c ∈ closingChars ∧ c ≠ ';' ∧ c ≠ ',' ∧
      c ∈ [')', ']', '@', '-', '!'] := by
    simp only [List.forall_mem_cons, List.not_mem_nil, false_implies, implies_true, and_true]
    decide
  rcases hall close hclose with ⟨hcloses, hchain, hcomma, hstart⟩
  refine Distinct.bracketed hes hshown' ?_ (endsWhole_cons (by decide) (by decide))
    (endsWhole_cons hcloses hchain) hcomma h
  intro c hc
  have hc' : c.Every Showable := (List.mem_append.mp hc).elim (hshown c) (hshown' c)
  rcases hc'.exists_start with ⟨d, ds, htext, hd⟩
  exact ⟨d, ds, htext, hd.ne hstart⟩

/-- Fields between braces, with commas between each two. -/
theorem told_fields {fields fields' : List Field} (htold : ∀ field ∈ fields, field.value.Told)
    (hspans : ∀ field ∈ fields, field.span = default)
    (hshown' : ∀ field ∈ fields', field.value.Every Showable)
    (hspans' : ∀ field ∈ fields', field.span = default)
    (h : [',', ' '].intercalate (dumpFields fields) ++ '\x7d' :: rest =
      [',', ' '].intercalate (dumpFields fields') ++ '\x7d' :: rest') :
    fields = fields' ∧ rest = rest' := by
  rw [dumpFields_eq_map, dumpFields_eq_map] at h
  refine Distinct.bracketed (P := fun field : Field => field.value.Every Showable ∧
      field.span = default) (fun field hfield => ?_)
    (fun field hfield => ⟨hshown' field hfield, hspans' field hfield⟩) (fun field _ => ?_)
    (endsWhole_cons (by decide) (by decide)) (endsWhole_cons (by decide) (by decide)) (by decide) h
  · rintro field' rest rest' ⟨hvalue', hspan'⟩ hrest hrest' htexts
    have hcolon : ∀ behind : List Char, EndsWord (':' :: behind).head? := fun _ =>
      endsWord_some (by decide) (by decide)
    simp only [List.append_assoc, List.cons_append] at htexts
    rcases nameText_distinct field.name field'.name _ _ trivial (hcolon _) (hcolon _) htexts
      with ⟨hname, hvalues⟩
    rcases htold field hfield field'.value rest rest' hvalue' hrest hrest' (by simpa using hvalues)
      with ⟨hvalue, hrests⟩
    have hspan := hspans field hfield
    rcases field with ⟨name, value, span⟩
    rcases field' with ⟨name', value', span'⟩
    obtain rfl : name = name' := hname
    obtain rfl : value = value' := hvalue
    obtain rfl : span = default := hspan
    obtain rfl : span' = default := hspan'
    exact ⟨rfl, hrests⟩
  · rcases nameText_eq_cons field.name with ⟨c, cs, htext, hc⟩
    exact ⟨c, _, by rw [htext]; rfl, ne_of_start hc (by decide) (by decide)⟩

/-! ## Expressions that start with a name -/

/-- A name with nothing behind it is told from the start of a longer expression. -/
theorem ne_text_of_nothing (hrest : EndsPrimary rest) {tail : WordTail} (htail : tail ≠ .nothing) :
    rest ≠ tail.text ++ rest' := by
  cases tail with
  | nothing => exact absurd rfl htail
  | field own => exact hrest.ne_cons (by decide)
  | call parts arguments =>
      rcases hrest with ⟨chain, behind, hchain, hbehind, rfl⟩
      rw [WordTail.text, List.append_assoc]
      exact chainText_ne_calleeRest hchain hbehind

/-- A name between brackets is no function name. -/
theorem field_text_ne (own : String) (parts : List String) (arguments : List Expr) :
    (WordTail.field own).text ++ rest ≠ (WordTail.call parts arguments).text ++ rest' := by
  cases parts <;> simp [WordTail.text, calleeRest]

/-- What stands behind a name is told apart. -/
theorem told_tail {tail tail' : WordTail} (hrest : EndsPrimary rest) (hrest' : EndsPrimary rest')
    (htold : ∀ parts arguments, tail = .call parts arguments →
      ∀ c ∈ arguments, c.Told ∧ c.Every Showable)
    (hshown' : ∀ parts arguments, tail' = .call parts arguments → ∀ c ∈ arguments, c.Every Showable)
    (h : tail.text ++ rest = tail'.text ++ rest') : tail = tail' ∧ rest = rest' := by
  cases tail with
  | nothing =>
      by_cases htail : tail' = .nothing
      · subst htail
        exact ⟨rfl, h⟩
      · exact absurd h (ne_text_of_nothing hrest htail)
  | field own =>
      cases tail' with
      | nothing => exact absurd h.symm (ne_text_of_nothing hrest' (by simp))
      | field own' =>
          have hbracket : ∀ behind : List Char, EndsWord (']' :: behind).head? := fun _ =>
            endsWord_some (by decide) (by decide)
          have hnames : nameText own ++ ']' :: rest = nameText own' ++ ']' :: rest' := by
            simpa [WordTail.text] using h
          rcases nameText_distinct own own' _ _ trivial (hbracket _) (hbracket _) hnames
            with ⟨rfl, hrests⟩
          exact ⟨rfl, (List.cons.inj hrests).2⟩
      | call parts' arguments' => exact absurd h (field_text_ne own parts' arguments')
  | call parts arguments =>
      cases tail' with
      | nothing => exact absurd h.symm (ne_text_of_nothing hrest' (by simp))
      | field own' => exact absurd h.symm (field_text_ne own' parts arguments)
      | call parts' arguments' =>
          have hparts : calleeRest parts ++
                '(' :: ([',', ' '].intercalate (arguments.map dumpChars) ++ ')' :: rest) =
              calleeRest parts' ++
                '(' :: ([',', ' '].intercalate (arguments'.map dumpChars) ++ ')' :: rest') := by
            simpa [WordTail.text] using h
          rcases calleeRest_inj hparts with ⟨rfl, hlists⟩
          have hown := htold parts arguments rfl
          rcases told_list (by decide) (fun c hc => (hown c hc).1) (fun c hc => (hown c hc).2)
            (hshown' parts arguments' rfl) hlists with ⟨rfl, hrests⟩
          exact ⟨rfl, hrests⟩

/-- The arguments that stand behind a name are parts of the expression. -/
theorem children_of_word {first : String} {quoted : Bool} {parts : List String}
    {arguments : List Expr} (h : e.word = some (first, quoted, .call parts arguments)) :
    e.children = arguments := by
  unfold word at h
  split at h
  · simp at h
  · simp at h
  · simp at h
  · split at h
    · simp only [Option.some.injEq, Prod.mk.injEq, WordTail.call.injEq] at h
      exact h.2.2.2
    · simp at h
  · simp at h

/-- Expressions that start with a name. -/
theorem told_word (htold : ∀ c ∈ e.children, c.Told) (h : e.Every Showable)
    (h' : e'.Every Showable) (hprimary : e.isPrimary = true) (hprimary' : e'.isPrimary = true)
    (hopening : e.opening = .word) (hopening' : e'.opening = .word) (hrest : EndsPrimary rest)
    (hrest' : EndsPrimary rest') (heq : e.dumpChars ++ rest = e'.dumpChars ++ rest') :
    e = e' ∧ rest = rest' := by
  rcases every_iff.mp h with ⟨hshape, hchildren⟩
  rcases every_iff.mp h' with ⟨hshape', hchildren'⟩
  rcases exists_word hshape hprimary hopening with ⟨text, name, quoted, tail, hword, htext, hreads⟩
  rcases exists_word hshape' hprimary' hopening'
    with ⟨text', name', quoted', tail', hword', htext', hreads'⟩
  rw [htext, htext', List.append_assoc, List.append_assoc] at heq
  obtain ⟨rfl, rfl, htails⟩ := hreads.inj hreads' (tail.endsWord hrest) (tail'.endsWord hrest') heq
  obtain ⟨rfl, hrests⟩ : tail = tail' ∧ rest = rest' := by
    refine told_tail hrest hrest' ?_ ?_ htails
    · rintro parts arguments rfl c hc
      rw [← children_of_word hword] at hc
      exact ⟨htold c hc, hchildren c hc⟩
    · rintro parts arguments rfl c hc
      rw [← children_of_word hword'] at hc
      exact hchildren' c hc
  rw [eq_ofWord hshape hprimary hword, ← eq_ofWord hshape' hprimary' hword']
  exact ⟨rfl, hrests⟩

/-! ## Operations -/

/-- Operators in front of an operand are told apart. -/
theorem signText_inj {op op' : Operator} (hop : op.isPrefix = true) (hop' : op'.isPrefix = true)
    (h : signText op ++ rest = signText op' ++ rest') : op = op' ∧ rest = rest' := by
  cases op <;> simp [Operator.isPrefix] at hop <;> cases op' <;>
    simp [Operator.isPrefix] at hop' <;> simp [signText, Operator.spelling] at h ⊢ <;> exact h

/-- Operators between two operands are told apart. -/
theorem spelling_inj {op op' : Operator} (hop : op.binding?.isSome = true)
    (hop' : op'.binding?.isSome = true)
    (h : op.spelling.toList ++ ' ' :: rest = op'.spelling.toList ++ ' ' :: rest') :
    op = op' ∧ rest = rest' := by
  -- no operator is written with a blank
  have hknown : ∀ op : Operator, op.binding?.isSome = true →
      op ∈ Operator.known ∧ op.spelling.toList.all (· ≠ ' ') = true := by
    intro op hop
    cases op <;> first | (simp [Operator.binding?] at hop; done) | decide
  rcases hknown op hop with ⟨hmem, hblank⟩
  rcases hknown op' hop' with ⟨hmem', hblank'⟩
  have hstop : ∀ (behind : List Char) (c : Char), (' ' :: behind).head? = some c →
      decide (c ≠ ' ') = false := by
    rintro behind c ⟨⟩
    rfl
  have htake := takeWhile_append_of_stop hblank (hstop rest)
  rw [h, takeWhile_append_of_stop hblank' (hstop rest')] at htake
  obtain rfl : op = op' := by
    rw [← Operator.ofSpelling_spelling hmem, ← Operator.ofSpelling_spelling hmem',
      String.ext htake]
  exact ⟨rfl, by simpa using h⟩

/-- The text of an operation with a percent sign. -/
theorem dumpChars_percent_append (operand : Expr) (span : Span) (rest : List Char) :
    (unary .percent operand span).dumpChars ++ rest =
      '(' :: (operand.dumpChars ++ '%' :: ')' :: rest) := by
  simp [dumpChars, Operator.isPostfix, Operator.spelling]

/-- Operations on one operand. -/
theorem told_unary {op op' : Operator} (hop : op.isPrefix = true ∨ op = .percent)
    (hop' : op'.isPrefix = true ∨ op' = .percent) (htold : l.Told) (h : l.Every Showable)
    (h' : l'.Every Showable)
    (heq : (unary op l default).dumpChars ++ rest = (unary op' l' default).dumpChars ++ rest') :
    unary op l default = unary op' l' default ∧ rest = rest' := by
  have hends : ∀ behind, EndsWhole ('%' :: behind) := endsWhole_cons (by decide) (by decide)
  have hclose : ∀ behind, EndsWhole (')' :: behind) := endsWhole_cons (by decide) (by decide)
  rcases hop with hop | rfl <;> rcases hop' with hop' | rfl
  · rw [dumpChars_sign hop, dumpChars_sign hop'] at heq
    simp only [List.cons_append, List.append_assoc, List.cons.injEq, true_and] at heq
    rcases signText_inj hop hop' heq with ⟨rfl, hoperands⟩
    rcases htold l' _ _ h' (hclose _) (hclose _) hoperands with ⟨rfl, hrests⟩
    exact ⟨rfl, by simpa using hrests⟩
  · rw [dumpChars_sign hop, dumpChars_percent_append] at heq
    simp only [List.cons_append, List.append_assoc, List.cons.injEq, true_and] at heq
    exact absurd heq (signText_ne hop h' (hends _).1 _)
  · rw [dumpChars_sign hop', dumpChars_percent_append] at heq
    simp only [List.cons_append, List.append_assoc, List.cons.injEq, true_and] at heq
    exact absurd heq.symm (signText_ne hop' h (hends _).1 _)
  · rw [dumpChars_percent_append, dumpChars_percent_append] at heq
    rcases htold l' _ _ h' (hends _) (hends _) (List.cons.inj heq).2 with ⟨rfl, hrests⟩
    exact ⟨rfl, by simpa using hrests⟩

/-- The text of an operation on two operands. -/
theorem dumpChars_binary_append (op : Operator) (l r : Expr) (span : Span) (rest : List Char) :
    (binary op l r span).dumpChars ++ rest =
      '(' :: (l.dumpChars ++ ' ' :: (op.spelling.toList ++ ' ' :: (r.dumpChars ++ ')' :: rest))) := by
  simp [dumpChars]

/-- Operations on two operands. -/
theorem told_binary {op op' : Operator} (hop : op.binding?.isSome = true)
    (hop' : op'.binding?.isSome = true) (hl : l.Told) (hr : r.Told) (hl' : l'.Every Showable)
    (hr' : r'.Every Showable)
    (heq : (binary op l r default).dumpChars ++ rest =
      (binary op' l' r' default).dumpChars ++ rest') :
    binary op l r default = binary op' l' r' default ∧ rest = rest' := by
  have hblank : ∀ behind, EndsWhole (' ' :: behind) := endsWhole_cons (by decide) (by decide)
  have hclose : ∀ behind, EndsWhole (')' :: behind) := endsWhole_cons (by decide) (by decide)
  rw [dumpChars_binary_append, dumpChars_binary_append] at heq
  rcases hl l' _ _ hl' (hblank _) (hblank _) (List.cons.inj heq).2 with ⟨rfl, hbehind⟩
  rcases spelling_inj hop hop' (List.cons.inj hbehind).2 with ⟨rfl, hoperands⟩
  rcases hr r' _ _ hr' (hclose _) (hclose _) hoperands with ⟨rfl, hrests⟩
  exact ⟨rfl, by simpa using hrests⟩

/-- Different characters stand behind different operands. -/
theorem Told.ne (htold : l.Told) (h' : l'.Every Showable) {c c' : Char} (hc : c ∈ closingChars)
    (hc' : c' ∈ closingChars) (hchain : c ≠ ';') (hchain' : c' ≠ ';') (hne : c ≠ c') :
    l.dumpChars ++ c :: rest ≠ l'.dumpChars ++ c' :: rest' := by
  intro heq
  have hrests := (htold l' _ _ h' (endsWhole_cons hc hchain _) (endsWhole_cons hc' hchain' _) heq).2
  exact hne (List.cons.inj hrests).1

/-- An operation on one operand is none on two, if a percent sign behind its operand is no blank
behind the first one of these. -/
theorem unary_ne_binary {op op' : Operator} (hop : op.isPrefix = true ∨ op = .percent)
    (h' : l'.Every Showable)
    (hne : ∀ behind behind', l.dumpChars ++ '%' :: behind ≠ l'.dumpChars ++ ' ' :: behind') :
    (unary op l default).dumpChars ++ rest ≠ (binary op' l' r' default).dumpChars ++ rest' := by
  rw [dumpChars_binary_append]
  intro heq
  rcases hop with hop | rfl
  · rw [dumpChars_sign hop] at heq
    simp only [List.cons_append, List.append_assoc, List.cons.injEq, true_and] at heq
    exact signText_ne hop h' (endsItem_cons (by decide) _) _ heq
  · rw [dumpChars_percent_append] at heq
    exact hne _ _ (List.cons.inj heq).2

/-! ## Expressions without members -/

/-- Numbers open as numbers. -/
theorem eq_of_opening_number (h : e.opening = .number) :
    ∃ number written span, e = literal (.number number written) span := by
  unfold opening at h
  split at h <;> cases h
  exact ⟨_, _, _, rfl⟩

/-- Texts open as texts. -/
theorem eq_of_opening_text (h : e.opening = .text) : ∃ value span, e = literal (.text value) span := by
  unfold opening at h
  split at h <;> cases h
  exact ⟨_, _, rfl⟩

/-- Global names and tables open with a bracket. -/
theorem eq_of_opening_bracket (h : e.opening = .bracket) :
    (∃ own place members span, e = name (.global own) place members span) ∨
      ∃ elements span, e = table elements span := by
  unfold opening at h
  split at h <;> cases h
  · exact Or.inl ⟨_, _, _, _, rfl⟩
  · exact Or.inr ⟨_, _, rfl⟩

/-- Records open with a brace. -/
theorem eq_of_opening_brace (h : e.opening = .brace) : ∃ fields span, e = record fields span := by
  unfold opening at h
  split at h <;> cases h
  exact ⟨_, _, rfl⟩

/-- Operations open with a parenthesis. -/
theorem eq_of_opening_parenthesis (h : e.opening = .parenthesis) :
    (∃ op operand span, e = unary op operand span) ∨
      ∃ op left right span, e = binary op left right span := by
  unfold opening at h
  split at h <;> cases h
  · exact Or.inl ⟨_, _, _, rfl⟩
  · exact Or.inr ⟨_, _, _, _, rfl⟩

/-- Numbers. -/
theorem told_number (h : e.Showable) (h' : e'.Showable) (hopening : e.opening = .number)
    (hopening' : e'.opening = .number) (hrest : EndsPrimary rest) (hrest' : EndsPrimary rest')
    (heq : e.dumpChars ++ rest = e'.dumpChars ++ rest') : e = e' ∧ rest = rest' := by
  rcases eq_of_opening_number hopening with ⟨number, written, span, rfl⟩
  rcases eq_of_opening_number hopening' with ⟨number', written', span', rfl⟩
  rcases h.dumpChars_number with ⟨htext, hplain⟩
  rcases h'.dumpChars_number with ⟨htext', hplain'⟩
  rw [htext, htext'] at heq
  rcases plainNumeral_inj hplain hplain' hrest hrest' heq with ⟨hwritten, hrests⟩
  obtain ⟨rfl, hform, -⟩ := h
  obtain ⟨rfl, hform', -⟩ := h'
  rw [← hform, ← hform', Literal.form, Literal.form, hwritten]
  exact ⟨rfl, hrests⟩

/-- Texts. -/
theorem told_text (h : e.Showable) (h' : e'.Showable) (hopening : e.opening = .text)
    (hopening' : e'.opening = .text) (hrest : EndsPrimary rest) (hrest' : EndsPrimary rest')
    (heq : e.dumpChars ++ rest = e'.dumpChars ++ rest') : e = e' ∧ rest = rest' := by
  rcases eq_of_opening_text hopening with ⟨value, span, rfl⟩
  rcases eq_of_opening_text hopening' with ⟨value', span', rfl⟩
  obtain ⟨rfl, -⟩ := h
  obtain ⟨rfl, -⟩ := h'
  have hquote : ∀ {behind}, EndsPrimary behind → behind.head? ≠ some '"' := fun hbehind hhead =>
    absurd (hbehind.head_mem hhead) (by decide)
  rcases quotedText_distinct value value' rest rest' trivial (hquote hrest) (hquote hrest') heq
    with ⟨rfl, hrests⟩
  exact ⟨rfl, hrests⟩

/-- Records. -/
theorem told_brace (htold : ∀ c ∈ e.children, c.Told) (h : e.Showable) (h' : e'.Every Showable)
    (hopening : e.opening = .brace) (hopening' : e'.opening = .brace)
    (heq : e.dumpChars ++ rest = e'.dumpChars ++ rest') : e = e' ∧ rest = rest' := by
  rcases eq_of_opening_brace hopening with ⟨fields, span, rfl⟩
  rcases eq_of_opening_brace hopening' with ⟨fields', span', rfl⟩
  rcases every_iff.mp h' with ⟨⟨rfl, hspans'⟩, hchildren'⟩
  obtain ⟨rfl, hspans⟩ := h
  have hfields : [',', ' '].intercalate (dumpFields fields) ++ '\x7d' :: rest =
      [',', ' '].intercalate (dumpFields fields') ++ '\x7d' :: rest' := by
    simpa [dumpChars] using heq
  rcases told_fields (fun field hfield => htold _ (List.mem_map_of_mem hfield)) hspans
    (fun field hfield => hchildren' _ (List.mem_map_of_mem hfield)) hspans' hfields
    with ⟨rfl, hrests⟩
  exact ⟨rfl, hrests⟩

/-- The text of a global name without members. -/
theorem dumpChars_global_append (own : String) (place span : Span) (rest : List Char) :
    (name (.global own) place [] span).dumpChars ++ rest =
      '[' :: '@' :: (nameText own ++ ']' :: rest) := by
  simp [dumpChars, Identifier.render, chainText]

/-- The text of a table. -/
theorem dumpChars_table_append (es : List Expr) (span : Span) (rest : List Char) :
    (table es span).dumpChars ++ rest =
      '[' :: ([',', ' '].intercalate (es.map dumpChars) ++ ']' :: rest) := by
  simp [dumpChars, dumpAll_eq_map]

/-- No table starts like a global name. -/
theorem table_ne_global (h : ∀ c ∈ es, c.Every Showable) (own : String) (place span span' : Span) :
    (table es span).dumpChars ++ rest ≠ (name (.global own) place [] span').dumpChars ++ rest' := by
  rw [dumpChars_table_append, dumpChars_global_append]
  intro heq
  have hinner := (List.cons.inj heq).2
  cases es with
  | nil => simp at hinner
  | cons first more =>
      rcases (h first (by simp)).exists_start with ⟨c, cs, htext, hc⟩
      rw [intercalate_map_cons, htext] at hinner
      exact hc.ne (by decide) (List.cons.inj hinner).1

/-- Global names and tables. -/
theorem told_bracket (htold : ∀ c ∈ e.children, c.Told) (h : e.Every Showable)
    (h' : e'.Every Showable) (hprimary : e.isPrimary = true) (hprimary' : e'.isPrimary = true)
    (hopening : e.opening = .bracket) (hopening' : e'.opening = .bracket)
    (heq : e.dumpChars ++ rest = e'.dumpChars ++ rest') : e = e' ∧ rest = rest' := by
  rcases every_iff.mp h with ⟨hshape, hchildren⟩
  rcases every_iff.mp h' with ⟨hshape', hchildren'⟩
  rcases eq_of_opening_bracket hopening with ⟨own, place, members, span, rfl⟩ | ⟨elements, span, rfl⟩
  · obtain rfl : members = [] := by simpa [isPrimary] using hprimary
    rcases eq_of_opening_bracket hopening'
      with ⟨own', place', members', span', rfl⟩ | ⟨elements', span', rfl⟩
    · obtain rfl : members' = [] := by simpa [isPrimary] using hprimary'
      obtain ⟨rfl, rfl, -⟩ := hshape
      obtain ⟨rfl, rfl, -⟩ := hshape'
      rw [dumpChars_global_append, dumpChars_global_append] at heq
      have hbracket : ∀ behind : List Char, EndsWord (']' :: behind).head? := fun _ =>
        endsWord_some (by decide) (by decide)
      rcases nameText_distinct own own' _ _ trivial (hbracket rest) (hbracket rest')
        (by simpa using heq) with ⟨rfl, hrests⟩
      exact ⟨rfl, (List.cons.inj hrests).2⟩
    · exact absurd heq.symm (table_ne_global hchildren' own place span' span)
  · rcases eq_of_opening_bracket hopening'
      with ⟨own', place', members', span', rfl⟩ | ⟨elements', span', rfl⟩
    · obtain rfl : members' = [] := by simpa [isPrimary] using hprimary'
      exact absurd heq (table_ne_global hchildren own' place' span span')
    · obtain rfl : span = default := hshape
      obtain rfl : span' = default := hshape'
      rw [dumpChars_table_append, dumpChars_table_append] at heq
      rcases told_list (by decide) htold hchildren hchildren' (List.cons.inj heq).2
        with ⟨rfl, hrests⟩
      exact ⟨rfl, hrests⟩

/-- Operations. -/
theorem told_parenthesis (htold : ∀ c ∈ e.children, c.Told) (h : e.Every Showable)
    (h' : e'.Every Showable) (hopening : e.opening = .parenthesis)
    (hopening' : e'.opening = .parenthesis) (heq : e.dumpChars ++ rest = e'.dumpChars ++ rest') :
    e = e' ∧ rest = rest' := by
  rcases every_iff.mp h with ⟨hshape, hchildren⟩
  rcases every_iff.mp h' with ⟨hshape', hchildren'⟩
  rcases eq_of_opening_parenthesis hopening with ⟨op, l, span, rfl⟩ | ⟨op, l, r, span, rfl⟩
  · obtain ⟨rfl, hop⟩ := hshape
    have hl := htold l (by simp [children])
    have hshown := hchildren l (by simp [children])
    rcases eq_of_opening_parenthesis hopening'
      with ⟨op', l', span', rfl⟩ | ⟨op', l', r', span', rfl⟩
    · obtain ⟨rfl, hop'⟩ := hshape'
      exact told_unary hop hop' hl hshown (hchildren' l' (by simp [children])) heq
    · obtain ⟨rfl, -⟩ := hshape'
      have hshown' := hchildren' l' (by simp [children])
      refine absurd heq (unary_ne_binary hop hshown' fun _ _ => ?_)
      exact hl.ne hshown' (by decide) (by decide) (by decide) (by decide) (by decide)
  · obtain ⟨rfl, hop⟩ := hshape
    have hl := htold l (by simp [children])
    have hshown := hchildren l (by simp [children])
    rcases eq_of_opening_parenthesis hopening'
      with ⟨op', l', span', rfl⟩ | ⟨op', l', r', span', rfl⟩
    · obtain ⟨rfl, hop'⟩ := hshape'
      have hshown' := hchildren' l' (by simp [children])
      refine absurd heq.symm (unary_ne_binary hop' hshown fun _ _ => ?_)
      exact (hl.ne hshown' (by decide) (by decide) (by decide) (by decide) (by decide)).symm
    · obtain ⟨rfl, hop'⟩ := hshape'
      exact told_binary hop hop' hl (htold r (by simp [children]))
        (hchildren' l' (by simp [children])) (hchildren' r' (by simp [children])) heq

/-- Expressions without members are told apart if their parts are. -/
theorem tells_primary (htold : ∀ c ∈ e.children, c.Told) (h : e.Every Showable)
    (hprimary : e.isPrimary = true) :
    Distinct EndsPrimary (fun e' => e'.Every Showable ∧ e'.isPrimary = true) dumpChars e := by
  rintro e' rest rest' ⟨h', hprimary'⟩ hrest hrest' heq
  have hshape := (every_iff.mp h).1
  have hshape' := (every_iff.mp h').1
  have hsame : e'.opening = e.opening := by
    rcases exists_opening hshape hprimary with ⟨c, cs, htext, hc, -⟩
    rcases exists_opening hshape' hprimary' with ⟨c', cs', htext', hc', -⟩
    rw [htext, htext'] at heq
    rw [← hc, ← hc', (List.cons.inj heq).1]
  cases hopening : e.opening with
  | number => exact told_number hshape hshape' hopening (hsame.trans hopening) hrest hrest' heq
  | text => exact told_text hshape hshape' hopening (hsame.trans hopening) hrest hrest' heq
  | word =>
      exact told_word htold h h' hprimary hprimary' hopening (hsame.trans hopening) hrest hrest' heq
  | bracket =>
      exact told_bracket htold h h' hprimary hprimary' hopening (hsame.trans hopening) heq
  | brace => exact told_brace htold hshape h' hopening (hsame.trans hopening) heq
  | parenthesis => exact told_parenthesis htold h h' hopening (hsame.trans hopening) heq

/-! ## Members and clauses -/

/-- Expressions with members are told apart if what these are accessed of is. -/
theorem tells_item (h : e.Every Showable) (hchain : e.isChain = false)
    (hcore : Distinct EndsPrimary (fun e' => e'.Every Showable ∧ e'.isPrimary = true) dumpChars
      e.core) :
    Distinct EndsItem (fun e' => e'.Every Showable ∧ e'.isChain = false) dumpChars e := by
  rintro e' rest rest' ⟨h', hchain'⟩ hrest hrest' heq
  rcases h.core hchain with ⟨-, -, hmembers, hforms⟩
  rcases h'.core hchain' with ⟨hshown', hprimary', hmembers', hforms'⟩
  rw [e.dumpChars_core, e'.dumpChars_core, List.append_assoc, List.append_assoc] at heq
  rcases hcore e'.core _ _ ⟨hshown', hprimary'⟩ ⟨_, _, hmembers, hrest, rfl⟩
    ⟨_, _, hmembers', hrest', rfl⟩ heq with ⟨hcores, hbehind⟩
  rcases chainText_distinct hmembers hmembers' hrest hrest' hbehind with ⟨hsame, hrests⟩
  rw [hforms, hforms'] at hsame
  exact ⟨(every_iff.mp h).1.eq_of_core (every_iff.mp h').1 hcores hsame, hrests⟩

/-- A chain that can be shown has its clauses and no place. -/
theorem Showable.eq_chain (h : e.Showable) (hchain : e.isChain = true) :
    e = chain e.clauses default ∧ 2 ≤ e.clauses.length := by
  cases e with
  | chain es span =>
      obtain ⟨rfl, hlength, -⟩ := h
      exact ⟨rfl, hlength⟩
  | _ => simp [isChain] at hchain

/-- Clauses make up an expression. -/
theorem Showable.eq_of_clauses (h : e.Showable) (h' : e'.Showable)
    (hclauses : e.clauses = e'.clauses) : e = e' := by
  cases hchain : e.isChain <;> cases hchain' : e'.isChain
  · simpa [clauses_of_not_chain hchain, clauses_of_not_chain hchain'] using hclauses
  · have hlength := (h'.eq_chain hchain').2
    simp [← hclauses, clauses_of_not_chain hchain] at hlength
  · have hlength := (h.eq_chain hchain).2
    simp [hclauses, clauses_of_not_chain hchain'] at hlength
  · rw [(h.eq_chain hchain).1, (h'.eq_chain hchain').1, hclauses]

/-- Expressions are told apart as wholes if their clauses are. -/
theorem told_of_clauses (h : e.Every Showable)
    (hclauses : ∀ c ∈ e.clauses,
      Distinct EndsItem (fun e' => e'.Every Showable ∧ e'.isChain = false) dumpChars c) :
    e.Told := by
  rintro e' rest rest' h' ⟨hrest, hend⟩ ⟨hrest', hend'⟩ heq
  have hshape := (every_iff.mp h).1
  have hshape' := (every_iff.mp h').1
  rw [← dumpChars_clauses, ← dumpChars_clauses] at heq
  rcases Distinct.intercalate hclauses h'.clauses hshape.clauses_ne_nil hshape'.clauses_ne_nil
    (endsItem_cons (by decide)) hrest hrest' hend hend' heq with ⟨hsame, hrests⟩
  exact ⟨hshape.eq_of_clauses hshape' hsame, hrests⟩

/-- Whatever canonical forms show is told apart: without members, with them, and as a whole. -/
theorem tells (h : e.Every Showable) :
    (e.isPrimary = true →
      Distinct EndsPrimary (fun e' => e'.Every Showable ∧ e'.isPrimary = true) dumpChars e) ∧
    (e.isChain = false →
      Distinct EndsItem (fun e' => e'.Every Showable ∧ e'.isChain = false) dumpChars e) ∧
    e.Told := by
  induction e using children_induct with
  | step e ih =>
      have hchildren := (every_iff.mp h).2
      have htold : ∀ c ∈ e.children, c.Told := fun c hc => (ih c hc (hchildren c hc)).2.2
      have hitem : e.isChain = false →
          Distinct EndsItem (fun e' => e'.Every Showable ∧ e'.isChain = false) dumpChars e := by
        intro hchain
        rcases h.core hchain with ⟨hcore, hprimary, -⟩
        refine tells_item h hchain ?_
        cases e with
        | member base members span =>
            have hbase : base ∈ (member base members span).children := by simp [children]
            exact (ih base hbase (hchildren base hbase)).1 hprimary
        | _ => exact tells_primary htold hcore hprimary
      refine ⟨tells_primary htold h, hitem, told_of_clauses h fun c hc => ?_⟩
      cases hchain : e.isChain with
      | false =>
          obtain rfl : c = e := by simpa [clauses_of_not_chain hchain] using hc
          exact hitem hchain
      | true =>
          rcases h.clauses c hc with ⟨hc', hflat⟩
          cases e with
          | chain es span => exact (ih c hc hc').2.1 hflat
          | _ => simp [isChain] at hchain

end

end Expr

end FormulaLint
