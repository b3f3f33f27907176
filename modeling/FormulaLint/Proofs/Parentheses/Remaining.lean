import FormulaLint.Proofs.Forms.Texts
import FormulaLint.Proofs.Parentheses.Skimming
import FormulaLint.Proofs.Parentheses.Spelling

/-!
# What remains of a text

What is written for an expression, with some of its pairs of parentheses left out, stands for the
tokens that are spelled for it, or for fewer words.

Main results:

- Theorem {lit}`Expr.remains_marked`: the tokens of what remains.
-/

namespace FormulaLint

section

variable {p : Profile} {follow : List Char → Prop} {text : List Char} {ks : List Kind}

/-! ## Names and members -/

/-- Members stand for two words each. -/
theorem skims_members {next : Option Char → Prop} {write : String → List Char}
    (hwrite : WritesNames p next write) {segments : List Segment}
    (hsegments : ∀ segment ∈ segments, segment.separator = .dot ∨ segment.separator = .notSign) :
    Skims p (fun rest => next rest.head?)
      (segments.flatMap fun segment => segment.separator.spelling.toList ++ write segment.name)
      (List.replicate (2 * segments.length) (.word true)) := by
  induction segments with
  | nil => exact .nil
  | cons segment segments ih =>
      rcases Lexes.memberSeparator hwrite (hsegments segment (by simp))
        with ⟨c, hspelling, -, -, hseparator⟩
      rcases hwrite.lexes segment.name with ⟨quoted, hname⟩
      rcases hwrite.head segment.name with ⟨d, ds, htext, hdigit⟩
      have hmember := hseparator.skims.append hname.skims fun rest _ => by
        rw [htext]
        simpa using hdigit
      have hmembers := hmember.append (ih fun s hs => hsegments s (by simp [hs])) ?_
      · rw [List.flatMap_cons, hspelling, List.length_cons, Nat.mul_add, Nat.add_comm,
          List.replicate_add]
        simpa [kind_of_not_number] using hmembers
      · intro rest hrest
        cases segments with
        | nil => exact hrest
        | cons s more =>
            rcases Lexes.memberSeparator hwrite (hsegments s (by simp))
              with ⟨c', hspelling', -, hnext, -⟩
            simpa [hspelling'] using hnext

/-- Members may stand behind an expression. -/
theorem behind_chainText {segments : List Segment} (hne : segments ≠ [])
    (hsegments : ∀ segment ∈ segments, segment.separator = .dot ∨ segment.separator = .notSign)
    {rest : List Char} (hrest : Behind p rest) : Behind p (chainText segments ++ rest) := by
  have hspelling : ∀ op : Operator, op = .dot ∨ op = .notSign →
      ∃ c, (c = '.' ∨ c = '!') ∧ op.spelling.toList = [c] := by
    rintro op (rfl | rfl)
    · exact ⟨'.', .inl rfl, by decide⟩
    · exact ⟨'!', .inr rfl, by decide⟩
  have hends : ∀ segments : List Segment,
      (∀ segment ∈ segments, segment.separator = .dot ∨ segment.separator = .notSign) →
        EndsOperand p (chainText segments ++ rest).head? := by
    rintro (_ | ⟨segment, more⟩) hsegments
    · exact hrest.endsOperand
    · rcases hspelling _ (hsegments segment (by simp)) with ⟨c, hc, htext⟩
      rw [chainText, List.flatMap_cons, htext]
      rcases hc with rfl | rfl
      · exact .inr (.inl rfl)
      · exact .inr (.inr rfl)
  rcases List.exists_cons_of_ne_nil hne with ⟨segment, more, rfl⟩
  rcases hspelling _ (hsegments segment (by simp)) with ⟨c, hc, htext⟩
  refine .inr ⟨c, segment.name, chainText more ++ rest, hc, ?_,
    hends more fun s hs => hsegments s (by simp [hs])⟩
  rw [chainText, List.flatMap_cons, htext]
  simp [chainText]

/-- A name stands for one word. -/
theorem skims_identifier (identifier : Identifier) :
    Skims p (fun rest => EndsName rest.head?) identifier.render [.word true] := by
  have hname : ∀ name, Skims p (fun rest => EndsName rest.head?) (nameText name) [.word true] :=
    fun name => (Lexes.name name).skims
  have hglobal : ∀ name, Skims p (fun rest => EndsName rest.head?)
      ('[' :: '@' :: (nameText name ++ [']'])) [.word true] :=
    fun name => (Lexes.global name).skims.imp fun _ _ => trivial
  cases identifier with
  | plain name => exact hname name
  | context name => exact hname name
  | global name => exact hglobal name
  | field source name =>
      rw [Identifier.render]
      split
      · exact hglobal name
      · exact (Lexes.field source name).skims.imp fun _ _ => trivial

/-- A function name with its qualifiers stands for two words for each of these and one more. -/
theorem skims_callee (qualifiers : List String) (function : String) :
    Skims p (fun rest => EndsName rest.head? ∧ blankOrEnd rest.head? = false)
      (calleeText qualifiers function)
      (List.replicate (1 + 2 * qualifiers.length) (.word true)) := by
  rcases exists_calleeText_eq qualifiers function with ⟨first, parts, hparts, htext⟩
  have hlength : parts.length = qualifiers.length := by
    have hcount := congrArg List.length hparts
    simpa using hcount.symm
  have hmembers := skims_members (p := p) writesNames_calleePartText
    (List.forall_mem_map.mpr fun name (_ : name ∈ parts) =>
      (.inl rfl : (⟨.dot, name, default⟩ : Segment).separator = .dot ∨ _))
  have hspelling : Operator.dot.spelling.toList = ['.'] := by decide
  simp only [List.flatMap_map, hspelling, List.length_map, hlength] at hmembers
  rw [htext, List.replicate_add]
  refine (Lexes.calleePart first).skims.append hmembers fun rest hrest => ?_
  cases parts with
  | nil => exact hrest
  | cons part parts => exact (writesNames_calleePartText (p := p)).point

/-- A literal stands for one token, or takes a word of a member behind it. -/
theorem skims_literal {value : Literal} {span : Span} (h : (Expr.literal value span).Shaped) :
    Skims p (Behind p) (value.render p.decimalChar) [value.payload.kind] := by
  cases value with
  | logical value =>
      exact (Lexes.logical value).skims.imp fun _ hrest => hrest.endsOperand.endsName
  | text value =>
      refine (Lexes.text value).skims.imp fun rest hrest => ?_
      rcases hrest.endsOperand with hdelimits | hpoint | hmark
      · exact hdelimits.ne_quote
      · simp [hpoint]
      · simp [hmark]
  | number number written =>
      have hnumeral : Numeral written.toList := h
      rw [Literal.payload, Literal.render, numberText_eq hnumeral.ne_nil]
      exact skims_number hnumeral.plain

/-! ## What remains of parts -/

/-- A text that does not start like a formula that is marked as one, nor as a bracketed name goes
on. -/
def Unmarked (text : List Char) : Prop :=
  ∃ c, text.head? = some c ∧ c ≠ '@' ∧ c ≠ '='

/-- Only the start of a text matters. -/
theorem Unmarked.append (h : Unmarked text) (rest : List Char) : Unmarked (text ++ rest) := by
  rcases h with ⟨c, hc, hne⟩
  exact ⟨c, by rw [List.head?_append, hc]; rfl, hne⟩

/-- A blank in front of a text that needs one. -/
theorem Unmarked.gap (h : Unmarked text) (cs : List Char) : Unmarked (wordGap cs ++ text) := by
  unfold wordGap
  split
  · exact ⟨' ', rfl, by decide, by decide⟩
  · exact h

/-- A name is not marked. -/
theorem unmarked_nameText (name : String) : Unmarked (nameText name) := by
  rcases nameText_eq_cons name with ⟨c, cs, htext, hc⟩
  refine ⟨c, by simp [htext], ?_, ?_⟩ <;> rintro rfl <;> rcases hc with hc | hc <;>
    exact absurd hc (by decide)

/-- A name of the given kind is not marked, nor does it go on a bracketed name. -/
theorem unmarked_identifier (identifier : Identifier) : Unmarked identifier.render := by
  have hglobal : ∀ name, Unmarked ('[' :: '@' :: (nameText name ++ [']'])) :=
    fun _ => ⟨'[', rfl, by decide, by decide⟩
  cases identifier with
  | plain name | context name => exact unmarked_nameText name
  | global name => exact hglobal name
  | field source name =>
      rw [Identifier.render]
      split
      · exact hglobal name
      · exact (unmarked_nameText source).append _

/-- A function name is not marked. -/
theorem unmarked_callee (qualifiers : List String) (function : String) :
    Unmarked (calleeText qualifiers function) := by
  rcases exists_calleeText_eq qualifiers function with ⟨first, parts, -, htext⟩
  rw [htext]
  refine Unmarked.append ?_ _
  unfold calleePartText
  split
  · rename_i hword
    have hwords : ∀ word ∈ operatorWords,
        word.toList.head?.any (fun c => c ≠ '@' ∧ c ≠ '=') = true := by decide
    simpa [Unmarked, Option.any_eq_true] using hwords first (by simpa using hword)
  · exact unmarked_nameText first

/-- A literal is not marked. -/
theorem unmarked_literal {value : Literal} {span : Span} (h : (Expr.literal value span).Shaped) :
    Unmarked (value.render p.decimalChar) := by
  cases value with
  | logical value => cases value <;> exact ⟨_, rfl, by decide, by decide⟩
  | text value => exact ⟨'"', rfl, by decide, by decide⟩
  | number number written =>
      have hnumeral : Numeral written.toList := h
      rcases hnumeral.plain.exists_digit with ⟨d, ds, htext, hd⟩
      have hne : ∀ c : Char, c.isDigit = false → d ≠ c := by
        rintro c hc rfl
        simp [hd] at hc
      rw [Literal.render, numberText_eq hnumeral.ne_nil, htext]
      exact ⟨d, by simp [hne '.' (by decide)], hne '@' (by decide), hne '=' (by decide)⟩

/-- What remains of a text for an expression. -/
structure Remains (p : Profile) (text : List Char) (ks : List Kind) : Prop where
  skims : Skims p (Behind p) text ks
  unmarked : Unmarked text

/-- A blank where one is needed. -/
theorem Skims.gap (h : Skims p follow text ks) (cs : List Char) :
    Skims p follow (wordGap cs ++ text) ks := by
  unfold wordGap
  split
  · exact Skims.blank.append h fun _ _ => trivial
  · exact h

/-- Whatever opened may be closed behind an expression. -/
theorem closing_mem_delimiters {c : Char} (hc : c = ')' ∨ c = ']' ∨ c = '\x7d') :
    c ∈ delimiters p := by
  rcases hc with rfl | rfl | rfl <;> cases p <;> decide

/-- What remains between two delimiters. -/
theorem Skims.enclosed {next : Option Char → Prop} {opening closing : Char}
    {payload payload' : Payload} (hopening : Lexes p next [opening] [payload])
    (h : Skims p (Behind p) text ks) (hclosing : Lexes p anything [closing] [payload'])
    (hnext : ∀ rest, next (text ++ closing :: rest).head?) (hdelimiter : closing ∈ delimiters p) :
    Skims p (Behind p) (opening :: (text ++ [closing]))
      (payload.kind :: (ks ++ [payload'.kind])) := by
  have hinner := h.append (hclosing.skims.imp fun _ _ => trivial : Skims p (Behind p) _ _)
    fun rest _ => behind_cons hdelimiter rest
  exact hopening.skims.append hinner fun rest _ => by simpa using hnext rest

/-- What remains of a list with the same gap between each two items. -/
theorem skims_intercalate {gap : List Char} {texts : List (List Char)} {parts : List (List Kind)}
    (hgap : Skims p (fun _ => True) gap [.word true]) (hbehind : ∀ rest, Behind p (gap ++ rest))
    (h : List.Forall₂ (Remains p) texts parts) :
    Skims p (Behind p) (gap.intercalate texts) (joined parts) := by
  induction h with
  | nil => exact .nil
  | @cons text ks texts parts hfirst hrest ih =>
      by_cases htexts : texts = []
      · subst htexts
        obtain rfl := List.forall₂_nil_left_iff.mp hrest
        rw [List.intercalate_singleton, joined_singleton]
        exact hfirst.skims
      · have hparts : parts ≠ [] := by
          rintro rfl
          exact htexts (List.forall₂_nil_right_iff.mp hrest)
        have hmore := hgap.append ih fun _ _ => trivial
        rw [List.intercalate_cons_of_ne_nil htexts, joined_cons hparts, List.append_assoc]
        exact hfirst.skims.append hmore fun rest _ => by
          rw [List.append_assoc]
          exact hbehind _

/-- A list starts as its first item does. -/
theorem unmarked_intercalate (gap : List Char) {texts : List (List Char)}
    {parts : List (List Kind)} (h : List.Forall₂ (Remains p) texts parts) (hne : texts ≠ []) :
    Unmarked (gap.intercalate texts) := by
  cases h with
  | nil => exact absurd rfl hne
  | @cons text ks texts parts hfirst hrest =>
      by_cases htexts : texts = []
      · subst htexts
        rw [List.intercalate_singleton]
        exact hfirst.unmarked
      · rw [List.intercalate_cons_of_ne_nil htexts, List.append_assoc]
        exact hfirst.unmarked.append _

/-- The gap of a list, which ends with a blank. -/
theorem skims_separator {gap : List Char} {payload : Payload} (hkind : payload.kind = .word true)
    (hgap : ∃ c cs, gap = c :: cs ++ [' '] ∧ c.isAlpha = false ∧ c ∈ delimiters p ∧
      Lexes p (fun next => next = some ' ') (c :: cs) [payload]) :
    Skims p (fun _ => True) gap [.word true] ∧ ∀ rest, Behind p (gap ++ rest) := by
  rcases hgap with ⟨c, cs, rfl, -, hdelimiter, hseparator⟩
  refine ⟨?_, fun rest => behind_cons hdelimiter _⟩
  have hskims := hseparator.skims.append Skims.blank fun _ _ => rfl
  simpa [hkind] using hskims

/-- An operator between two blanks. -/
theorem skims_operator {op : Operator} (hop : op.binding?.isSome = true) :
    Skims p (fun _ => True) (' ' :: (op.spelling.toList ++ [' '])) [.word true] ∧
      ∀ rest, Behind p (' ' :: (op.spelling.toList ++ [' ']) ++ rest) := by
  have hoperator : Lexes p anything (op.spelling.toList ++ [' ']) [.operator op] :=
    Lexes.binaryOperator hop Lexes.nil
  refine ⟨?_, fun rest => behind_cons (by cases p <;> decide) _⟩
  exact Skims.blank.append (hoperator.skims.imp fun _ _ => trivial) fun _ _ => trivial

/-- What remains of the fields of a record. -/
theorem remains_fields {fields : List Field} {texts : List (List Char)}
    {parts : List (List Kind)} (h : List.Forall₂ (Remains p) texts parts)
    (hlength : fields.length = parts.length) :
    List.Forall₂ (Remains p)
      (List.zipWith (fun field text => nameText field.name ++ ':' :: ' ' :: text) fields texts)
      (parts.map fun ks => [.word true, .word true] ++ ks) := by
  induction h generalizing fields with
  | nil =>
      rw [List.zipWith_nil_right]
      exact .nil
  | @cons text ks texts parts hfirst hrest ih =>
      cases fields with
      | nil => simp at hlength
      | cons field fields =>
          rw [List.zipWith_cons_cons, List.map_cons]
          refine .cons ⟨?_, (unmarked_nameText _).append _⟩ (ih (Nat.succ.inj hlength))
          have hvalue : Skims p (Behind p) (' ' :: text) ks :=
            Skims.blank.append hfirst.skims fun _ _ => trivial
          have hcolon := Lexes.colon.skims.append hvalue fun _ _ => trivial
          exact (Lexes.name field.name).skims.append hcolon fun _ _ =>
            endsName_some (by decide) (by decide) (by decide)

/-! ## What remains of an expression -/

namespace Expr

variable {keep : Path → Bool} {here : Path} {e : Expr}

/-- What is kept of a part between parentheses. -/
theorem keptText_enclosed (pair : Pair) (gap : List Char) (marks : List Mark) :
    keptText keep (.opening pair :: (plainMarks gap ++ marks ++ [.closing pair])) =
      if keep pair.path = true then '(' :: ((gap ++ keptText keep marks) ++ [')'])
      else gap ++ keptText keep marks := by
  have hplain : (plainMarks gap).filterMap (Mark.kept? keep) = gap := keptText_plainMarks gap
  split <;> rename_i hkeep <;>
    simp [keptText, Mark.kept?, hkeep, hplain]

/-- What remains of a child, with its parentheses if they are kept. -/
theorem remains_placed {child : Expr × Nat}
    (h : Remains p (keptText keep (child.1.marked p (here ++ [child.2])))
      (child.1.spelled p keep (here ++ [child.2]))) :
    Remains p (keptText keep (e.placed p here child)) (e.spelledChild p keep here child) := by
  rw [placed, spelledChild, Pair.around]
  by_cases hlevel : (child.1.render p).level < e.floor child.2
  · rw [if_pos hlevel, keptText_enclosed]
    have hgap := h.skims.gap ((child.1.marked p (here ++ [child.2])).map Mark.shown)
    by_cases hkeep : keep (here ++ [child.2]) = true
    · rw [if_pos hkeep, if_pos ⟨hlevel, hkeep⟩]
      exact ⟨hgap.enclosed Lexes.openingParenthesis Lexes.closingParenthesis (fun _ => trivial)
        (closing_mem_delimiters (.inl rfl)), '(', rfl, by decide, by decide⟩
    · rw [if_neg hkeep, if_neg fun hboth => hkeep hboth.2]
      exact ⟨hgap, h.unmarked.gap _⟩
  · rw [if_neg hlevel, if_neg fun hboth => hlevel hboth.1]
    exact h

/-- What remains of a chain, with one clause or more. -/
theorem remains_chain {clauses : List Expr} {span : Span} {parts : List (List Mark)}
    {spelled : List (List Kind)}
    (h : List.Forall₂ (Remains p) (parts.map (keptText keep)) spelled) (hne : parts ≠ []) :
    Remains p (keptText keep ((chain clauses span).assembled p parts))
      ((chain clauses span).arranged spelled) := by
  have hgap := skims_separator rfl (chainGap_eq p)
  rw [assembled, keptText_intercalate, arranged]
  exact ⟨skims_intercalate hgap.1 hgap.2 h, unmarked_intercalate _ h (by simpa using hne)⟩

/-- What remains of a name, with the names behind it. -/
theorem remains_name {identifier : Identifier} {identifierSpan span : Span}
    {segments : List Segment}
    (hshaped : (name identifier identifierSpan segments span).Shaped) :
    Remains p (keptText keep ((name identifier identifierSpan segments span).assembled p []))
      ((name identifier identifierSpan segments span).arranged []) := by
  have hmembers := skims_members (p := p) writesNames_nameText hshaped
  rw [assembled, keptText_plainMarks, arranged, List.replicate_add]
  refine ⟨?_, (unmarked_identifier identifier).append _⟩
  refine (skims_identifier identifier).append (hmembers.imp fun _ hrest => ?_) fun rest hrest => ?_
  · exact hrest.endsOperand.endsName
  · by_cases hnil : segments = []
    · subst hnil
      exact hrest.endsOperand.endsName
    · exact (behind_chainText hnil hshaped hrest).endsOperand.endsName

/-- What remains of a table. -/
theorem remains_table {elements : List Expr} {span : Span} {parts : List (List Mark)}
    {spelled : List (List Kind)}
    (h : List.Forall₂ (Remains p) (parts.map (keptText keep)) spelled) :
    Remains p (keptText keep ((table elements span).assembled p parts))
      ((table elements span).arranged spelled) := by
  have hgap := skims_separator rfl (listGap_eq p)
  have helements := skims_intercalate hgap.1 hgap.2 h
  -- An empty table shows its closing bracket where others show their first element.
  have hopening : ∀ (cs rest : List Char), Unmarked (wordGap cs ++
      ((listGap p).intercalate (parts.map (keptText keep)) ++ ']' :: rest)) := by
    intro cs rest
    by_cases hnil : parts.map (keptText keep) = []
    · rw [hnil]
      exact Unmarked.gap ⟨']', rfl, by decide, by decide⟩ cs
    · exact ((unmarked_intercalate _ h hnil).append _).gap cs
  simp only [assembled, spacedMarks, keptText_append, keptText_plainMarks, keptText_intercalate,
    arranged]
  refine ⟨(helements.gap _).enclosed Lexes.openingBracket Lexes.closingBracket (fun rest => ?_)
    (closing_mem_delimiters (.inr (.inl rfl))), '[', rfl, by decide, by decide⟩
  rcases hopening (((plainMarks (listGap p)).intercalate parts).map Mark.shown) rest
    with ⟨c, hc, hne, -⟩
  rw [List.append_assoc, hc]
  simpa using hne

/-- What remains of a sign in front of an operand. -/
theorem remains_sign {op : Operator} {c : Char} {marks : List Mark} {ks : List Kind}
    (hspelling : op.spelling.toList = [c]) (hlexes : Lexes p anything [c] [.operator op])
    (hat : c ≠ '@') (hequal : c ≠ '=') (h : Remains p (keptText keep marks) ks) :
    Remains p (keptText keep (plainMarks op.spelling.toList ++
      (plainMarks (wordGap (marks.map Mark.shown)) ++ marks))) (.word true :: ks) := by
  rw [keptText_append, keptText_append, keptText_plainMarks, keptText_plainMarks, hspelling]
  exact ⟨hlexes.skims.append (h.skims.gap _) fun _ _ => trivial, c, rfl, hat, hequal⟩

/-- What remains of an operator with one operand. -/
theorem remains_unary {op : Operator} {operand : Expr} {span : Span} {marks : List Mark}
    {ks : List Kind} (hshaped : (unary op operand span).Shaped)
    (h : Remains p (keptText keep marks) ks) :
    Remains p (keptText keep ((unary op operand span).assembled p [marks]))
      ((unary op operand span).arranged [ks]) := by
  simp only [assembled, arranged, List.flatten_singleton, spacedMarks]
  rcases hshaped with hprefix | rfl
  · cases op with
    | minus => exact remains_sign rfl Lexes.minus (by decide) (by decide) h
    | notSign => exact remains_sign rfl Lexes.notSign (by decide) (by decide) h
    | notWord =>
        have hnot : Lexes p anything ("Not".toList ++ [' ']) [.operator .notWord] :=
          Lexes.word rfl Lexes.nil
        have htext : keptText keep (plainMarks (Operator.notWord.spelling.toList ++ [' ']) ++
            marks) = ("Not".toList ++ [' ']) ++ keptText keep marks := by
          rw [keptText_append, keptText_plainMarks]
          rfl
        refine ⟨?_, 'N', rfl, by decide, by decide⟩
        exact htext ▸ hnot.skims.append h.skims fun _ _ => trivial
    | _ => simp [Operator.isPrefix] at hprefix
  · have hpercent : Skims p (Behind p) ['%'] [.word true] :=
      Lexes.percent.skims.imp fun _ _ => trivial
    have htext : keptText keep (marks ++ plainMarks Operator.percent.spelling.toList) =
        keptText keep marks ++ ['%'] := by
      rw [keptText_append, keptText_plainMarks]
      rfl
    have hskims := h.skims.append hpercent fun rest _ =>
      behind_cons (by cases p <;> decide) rest
    exact htext ▸ ⟨hskims, h.unmarked.append _⟩

/-- What remains of an expression is put together from what remains of its children. -/
theorem remains_assembled {parts : List (List Mark)} {spelled : List (List Kind)}
    (hshaped : e.Shaped) (hlength : parts.length = e.children.length)
    (h : List.Forall₂ (Remains p) (parts.map (keptText keep)) spelled) :
    Remains p (keptText keep (e.assembled p parts)) (e.arranged spelled) := by
  have hlistGap := skims_separator rfl (listGap_eq p)
  have hlist := skims_intercalate hlistGap.1 hlistGap.2 h
  cases e with
  | literal value span =>
      rw [assembled, keptText_plainMarks, arranged]
      exact ⟨skims_literal hshaped, unmarked_literal hshaped⟩
  | name identifier identifierSpan segments span =>
      obtain rfl := List.eq_nil_of_length_eq_zero hlength
      obtain rfl := List.forall₂_nil_left_iff.mp h
      exact remains_name hshaped
  | member base segments span =>
      rcases hshaped with ⟨hne, -, -, hsegments⟩
      rcases List.length_eq_one_iff.mp hlength with ⟨part, rfl⟩
      rcases List.forall₂_cons_left_iff.mp h with ⟨ks, _, hbase, hrest, rfl⟩
      obtain rfl := List.forall₂_nil_left_iff.mp hrest
      have hmembers := skims_members (p := p) writesNames_nameText hsegments
      rw [assembled, arranged, List.flatten_singleton, List.flatten_singleton, keptText_append,
        keptText_plainMarks]
      refine ⟨?_, hbase.unmarked.append _⟩
      exact hbase.skims.append (hmembers.imp fun _ hrest => hrest.endsOperand.endsName)
        fun rest hrest => behind_chainText hne hsegments hrest
  | call function arguments qualifiers span =>
      simp only [assembled, spacedMarks, keptText_append, keptText_plainMarks, keptText_intercalate,
        arranged, List.append_assoc]
      have harguments := (hlist.gap (((plainMarks (listGap p)).intercalate parts).map
        Mark.shown)).enclosed Lexes.openingParenthesis Lexes.closingParenthesis (fun _ => trivial)
        (closing_mem_delimiters (.inl rfl))
      refine ⟨?_, (unmarked_callee qualifiers function).append _⟩
      simpa using (skims_callee qualifiers function).append harguments fun _ _ => endsName_parenthesis
  | record fields span =>
      have hfields : fields.length = spelled.length := by
        rw [← h.length_eq, List.length_map, hlength]
        simp [children]
      have hlist := skims_intercalate hlistGap.1 hlistGap.2 (remains_fields h hfields)
      simp only [assembled, keptText_append, keptText_plainMarks, keptText_intercalate,
        keptText_fields, arranged]
      exact ⟨hlist.enclosed Lexes.openingBrace Lexes.closingBrace (fun _ => trivial)
        (closing_mem_delimiters (.inr (.inr rfl))), '\x7b', rfl, by decide, by decide⟩
  | table elements span => exact remains_table h
  | unary op operand span =>
      rcases List.length_eq_one_iff.mp hlength with ⟨part, rfl⟩
      rcases List.forall₂_cons_left_iff.mp h with ⟨ks, _, hoperand, hrest, rfl⟩
      obtain rfl := List.forall₂_nil_left_iff.mp hrest
      exact remains_unary hshaped hoperand
  | binary op left right span =>
      have hgap := skims_operator (p := p) hshaped
      rw [assembled, keptText_intercalate, arranged]
      refine ⟨skims_intercalate hgap.1 hgap.2 h, unmarked_intercalate _ h ?_⟩
      intro hnil
      simp [List.map_eq_nil_iff.mp hnil, children] at hlength
  | chain clauses span =>
      refine remains_chain h ?_
      rintro rfl
      have hclauses : 2 ≤ clauses.length := hshaped
      rw [children, List.length_nil] at hlength
      omega
  | hole => exact absurd hshaped id

/-- What remains of the children when that is known of each. -/
theorem remains_children
    (h : ∀ c ∈ e.children, ∀ path, Remains p (keptText keep (c.marked p path))
      (c.spelled p keep path)) :
    List.Forall₂ (Remains p) ((e.children.zipIdx.map (e.placed p here)).map (keptText keep))
      (e.children.zipIdx.map (e.spelledChild p keep here)) := by
  rw [List.map_map, List.forall₂_map_left_iff, List.forall₂_map_right_iff, List.forall₂_same]
  exact fun child hchild => remains_placed (h child.1 (List.fst_mem_of_mem_zipIdx hchild) _)

/-- What is written for an expression, with some pairs left out, stands for the tokens that are
spelled for it, or for fewer words. -/
theorem remains_marked (h : e.Every Shaped) :
    Remains p (keptText keep (e.marked p here)) (e.spelled p keep here) := by
  induction e using children_induct generalizing here with
  | step e ih =>
      obtain ⟨hshaped, hchildren⟩ := every_iff.mp h
      rw [marked_eq, spelled_eq]
      exact remains_assembled hshaped (by simp)
        (remains_children fun c hc path => ih c hc (hchildren c hc))

/-- What is written for the clauses of a formula, with some pairs left out. -/
theorem remains_clauses {clauses : List Expr} (hne : clauses ≠ [])
    (h : ∀ e ∈ clauses, e.Every Shaped) (span : Span) :
    Remains p (keptText keep ((chain clauses span).marked p here))
      ((chain clauses span).spelled p keep here) := by
  rw [marked_eq, spelled_eq]
  exact remains_chain (remains_children fun c hc _ => remains_marked (h c hc))
    (by simpa [children] using hne)

end Expr

end

end FormulaLint
