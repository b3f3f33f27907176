import FormulaLint.Proofs.RoundTrip.References

/-!
# Expressions are read back

Every kind of expression is read back when its parts are: lists item by item, operations with the
parentheses that their operands need, chains clause by clause.  By induction over the parts of an
expression, what is written for a tree of the grammar is read as a tree that is written alike.

Main results:

- Theorem {lit}`Written.call`, {lit}`Written.record` and {lit}`Written.table`: lists of parts.
- Theorem {lit}`Written.unary` and {lit}`Written.binary`: operations.
- Theorem {lit}`writes_clauses`: chained expressions.
- Theorem {lit}`written_of_rereadable` and {lit}`written_of_writable`: every expression that can be
  written.
-/

namespace FormulaLint

variable {p : Profile} {span : Span} {es : List Expr}

/-! ## Lists of parts -/

/-- A list of expressions is read back, each of them in a place of the list. -/
theorem writes_list (place : Rendered → List Char) (item : Expr → Phrase)
    (list : List Expr → Phrase)
    (hplace : ∀ e, Written p e → Writes p (Delimits p) (place (e.render p))
      fun ts => ∃ e', e.Alike p e' ∧ Derives (item e') ts)
    (hnone : Derives (list []) [])
    (hfirst : ∀ {e ts}, Derives (item e) ts → Derives (list [e]) ts)
    (hnext : ∀ {es ts t e ts'}, Derives (list es) ts → es ≠ [] → t.Lists → Derives (item e) ts' →
      Derives (list (es ++ [e])) (ts ++ t :: ts'))
    (h : ∀ e ∈ es, Written p e) :
    Writes p (Delimits p) ((listGap p).intercalate (es.map fun e => place (e.render p)))
      fun ts => ∃ es', Expr.AllAlike p es es' ∧ Derives (list es') ts := by
  by_cases hnil : es = []
  · subst hnil
    apply Writes.nil.imp
    rintro ts rfl
    exact ⟨[], ⟨rfl, rfl, rfl⟩, hnone⟩
  · refine Writes.list (fun es ts => ∃ es', Expr.AllAlike p es es' ∧ Derives (list es') ts)
      (listGap_eq p) ?_ ?_ hnil fun e he => hplace e (h e he)
    · rintro e ts ⟨e', halike, hread⟩
      exact ⟨[e'], halike.all, hfirst hread⟩
    · rintro front ts t e ts' hne ⟨front', hall, hfront⟩ ht ⟨e', halike, hread⟩
      exact ⟨front' ++ [e'], hall.snoc halike, hnext hfront (hall.ne_nil hne) ht hread⟩

/-- The arguments of a call are read back. -/
theorem writes_arguments (h : ∀ e ∈ es, Written p e) :
    Writes p (Delimits p) ((listGap p).intercalate (es.map fun e => (e.render p).text))
      fun ts => ∃ es', Expr.AllAlike p es es' ∧ Derives (.arguments es') ts :=
  writes_list Rendered.text .chain .arguments
    (fun _ hwritten => hwritten.delimited.imp fun _ hread => hread.chain)
    .noArguments .firstArgument .nextArgument h

/-- The elements of a table are read back. -/
theorem writes_elements (h : ∀ e ∈ es, Written p e) :
    Writes p (Delimits p) ((listGap p).intercalate (es.map fun e => (e.render p).unchained))
      fun ts => ∃ es', Expr.AllAlike p es es' ∧ Derives (.elements es') ts :=
  writes_list Rendered.unchained (.level 0) .elements (fun _ hwritten => hwritten.unchained)
    .noElements .firstElement .nextElement h

/-- A field of a record is read back. -/
theorem writes_field {value : Expr} (name : String) (h : Written p value) :
    Writes p (Delimits p) (nameText name ++ ':' :: ' ' :: (value.render p).unchained) fun ts =>
      ∃ t quoted colon ts' value', ts = t :: colon :: ts' ∧ t.payload = .identifier name quoted ∧
        colon.payload = .separator .colon ∧ value.Alike p value' ∧
        Derives (.level 0 value') ts' := by
  have hname := (Writes.single (Lexes.name (p := p) name)).snoc Lexes.colon (by decide)
    (endsName_some (by decide) (by decide) (by decide))
  have hfield := hname.spaced h.unchained trivial
  rw [List.append_assoc] at hfield
  apply hfield.imp
  intro ts hts
  rcases hts with ⟨_, ts', rfl, ⟨_, colon, rfl, ⟨t, rfl, ht⟩, hcolon⟩, value', halike, hread⟩
  exact ⟨t, _, colon, ts', value', rfl, ht, hcolon, halike, hread⟩

/-- The fields of a record are read back. -/
theorem writes_fields {fields : List Field} (h : ∀ field ∈ fields, Written p field.value) :
    Writes p (Delimits p) ((listGap p).intercalate (renderFields p fields))
      fun ts => ∃ fields', Expr.FieldsAlike p fields fields' ∧ Derives (.fields fields') ts := by
  rw [renderFields_eq_map]
  by_cases hnil : fields = []
  · subst hnil
    apply Writes.nil.imp
    rintro ts rfl
    exact ⟨[], ⟨rfl, rfl, rfl⟩, .noFields⟩
  · have hnone : Expr.FieldsAlike p [] [] := ⟨rfl, rfl, rfl⟩
    refine Writes.list
      (fun fields ts => ∃ fields', Expr.FieldsAlike p fields fields' ∧ Derives (.fields fields') ts)
      (listGap_eq p) ?_ ?_ hnil fun field hfield => writes_field field.name (h field hfield)
    · rintro ⟨name, value, fieldSpan⟩ ts
        ⟨t, quoted, colon, ts', value', rfl, ht, hcolon, halike, hread⟩
      exact ⟨_, hnone.snoc halike, .firstField ht hcolon hread⟩
    · rintro front ts separator ⟨name, value, fieldSpan⟩ ts' hne ⟨front', hall, hfront⟩ hseparator
        ⟨t, quoted, colon, inner, value', rfl, ht, hcolon, halike, hread⟩
      exact ⟨_, hall.snoc halike,
        .nextField hfront (hall.ne_nil hne) hseparator ht hcolon hread⟩

/-- What ends with a delimiter and is a primary or a qualified call is read back. -/
theorem Written.of_closed {e : Expr} {text : List Char}
    (hrender : e.render p = ⟨text, primaryLevel⟩)
    (h : Writes p anything text fun ts => ∃ e', e.Alike p e' ∧ Derives (.member e') ts) :
    Written p e := by
  have hlevel : (e.render p).level = primaryLevel := by rw [hrender]
  unfold Written
  rw [hrender]
  apply (h.before fun _ _ => trivial).imp
  intro ts hts
  rcases hts with ⟨e', halike, hread⟩
  exact .of_level hlevel (by decide) halike hread

/-- A record is read back. -/
theorem Written.record {fields : List Field} (h : ∀ field ∈ fields, Written p field.value) :
    Written p (.record fields span) := by
  have hfields := writes_fields h
  have hword : ¬ LedByWord ((listGap p).intercalate (renderFields p fields)) := by
    rw [renderFields_eq_map]
    cases fields with
    | nil =>
        rintro ⟨word, -, more, htext⟩
        simp at htext
    | cons field fields =>
        rw [intercalate_map_cons, List.append_assoc]
        exact not_ledByWord_nameText field.name (endsWord_some (by decide) (by decide))
  have hrecord := Writes.enclosed Lexes.openingBrace hfields hword (fun _ _ => trivial)
    Lexes.closingBrace (by decide) (by cases p <;> decide)
  apply Written.of_closed (by rw [Expr.render])
  apply hrecord.imp
  intro ts hts
  rcases hts with ⟨opening, inner, closing, rfl, hopening, ⟨fields', hall, hread⟩, hclosing⟩
  exact ⟨_, .record hall, .bare (.record hopening hread hclosing)⟩

/-- A table is read back. -/
theorem Written.table (h : ∀ e ∈ es, Written p e) : Written p (.table es span) := by
  have helements := writes_elements h
  have htable := Writes.enclosed Lexes.openingBracket helements.spaceOperatorWord
    (not_ledByWord_spaceOperatorWord _) helements.spaceOperatorWord.head_append_ne_at
    Lexes.closingBracket (by decide) (by cases p <;> decide)
  apply Written.of_closed (by rw [Expr.render, renderAll_eq_map, List.map_map])
  apply htable.imp
  intro ts hts
  rcases hts with ⟨opening, inner, closing, rfl, hopening, ⟨es', hall, hread⟩, hclosing⟩
  exact ⟨_, .table hall, .bare (.table hopening hread hclosing)⟩

/-! ## Calls -/

/-- A parenthesis stands behind a function name. -/
theorem endsName_parenthesis :
    EndsName (some '(') ∧ blankOrEnd (some '(') = false :=
  ⟨endsName_some (by decide) (by decide) (by decide), by decide⟩

/-- Members that are all behind points qualify a function name. -/
theorem qualifiers?_name {q : String} {qs : List String} {identifierSpan nameSpan : Span}
    {chain : List Segment} (h : memberKeys chain = qs.map fun name => (.dot, name)) :
    qualifiers? (.name (.plain q) identifierSpan chain nameSpan) = some (q :: qs) := by
  have hnames : chain.map (·.name) = qs := by
    have hsecond := congrArg (List.map Prod.snd) h
    simpa [memberKeys, List.map_map, Function.comp_def] using hsecond
  have hpoints : chain.all (·.separator = .dot) = true := by
    refine List.all_eq_true.mpr fun segment hsegment => ?_
    have hmem : (segment.separator, segment.name) ∈ memberKeys chain :=
      List.mem_map_of_mem hsegment
    rw [h] at hmem
    rcases List.mem_map.mp hmem with ⟨name, -, hname⟩
    simpa using (congrArg Prod.fst hname).symm
  simp only [qualifiers?, hpoints, hnames, ↓reduceIte]

/-- The qualifiers in front of a function name are read as a name with members. -/
theorem writes_qualifiers {q : String} (hq : q ∉ contextKeywords) (qs : List String) :
    Writes p (fun next => EndsName next ∧ blankOrEnd next = false)
      (calleePartText q ++ qs.flatMap fun part => ['.'] ++ calleePartText part)
      fun ts => ∃ e, qualifiers? e = some (q :: qs) ∧ Derives (.member e) ts := by
  have hfirst : Writes p (fun next => EndsName next ∧ blankOrEnd next = false) (calleePartText q)
      fun ts => ∃ e, NameMade (· = .plain q) [] e ∧ Derives (.member e) ts := by
    apply (Writes.single (Lexes.calleePart q)).imp
    intro ts hts
    rcases hts with ⟨t, rfl, ht⟩
    have hcontext : contextKeywords.contains q = false := by simpa using hq
    refine ⟨_, ⟨_, _, _, _, rfl, ?_, rfl⟩, .bare (.name ht)⟩
    simp only [hcontext, Bool.false_and, Bool.false_eq_true, ↓reduceIte]
  have hpoints : ∀ segment ∈ qs.map fun name => (⟨.dot, name, default⟩ : Segment),
      segment.separator = .dot ∨ segment.separator = .notSign := by simp
  have hmembers := Writes.members writesNames_calleePartText (keptByMembers_name _) hpoints hfirst
  have hspelling : Operator.dot.spelling.toList = ['.'] := by decide
  simp only [List.flatMap_map, hspelling] at hmembers
  apply hmembers.imp
  intro ts hts
  rcases hts with ⟨e, ⟨_, _, chain, _, rfl, rfl, hkeys⟩, hread⟩
  refine ⟨_, qualifiers?_name ?_, hread⟩
  rw [hkeys, List.nil_append, memberKeys, List.map_map]
  rfl

/-- A function name with one qualifier or more. -/
theorem calleeText_cons (q : String) (qs : List String) (function : String) :
    calleeText (q :: qs) function =
      (calleePartText q ++ qs.flatMap fun part => ['.'] ++ calleePartText part) ++
        (Operator.dot.spelling.toList ++ calleePartText function) := by
  have hparts : calleeText (q :: qs) function =
      ['.'].intercalate ((q :: (qs ++ [function])).map calleePartText) := rfl
  have hspelling : Operator.dot.spelling.toList = ['.'] := by decide
  rw [hparts, intercalate_map_cons, List.flatMap_append, List.flatMap_singleton, hspelling,
    List.append_assoc]

/-- A call is read back. -/
theorem Written.call {function : String} {qualifiers : List String} (h : ∀ e ∈ es, Written p e)
    (hqualifiers : ∀ q qs, qualifiers = q :: qs → q ∉ contextKeywords) :
    Written p (.call function es qualifiers span) := by
  have harguments := (writes_arguments h).parenthesized
  have hrender : (Expr.call function es qualifiers span).render p =
      ⟨calleeText qualifiers function ++ '(' :: (spaceOperatorWord
        ((listGap p).intercalate (es.map fun e => (e.render p).text)) ++ [')']), primaryLevel⟩ := by
    rw [Expr.render, renderAll_eq_map, List.map_map]
    rfl
  apply Written.of_closed hrender
  cases qualifiers with
  | nil =>
      have hcallee : calleeText [] function = calleePartText function :=
        List.intercalate_singleton
      have hcall := Writes.cons (Lexes.calleePart function) harguments
        (not_ledByWord_cons (by decide) _) fun _ _ => endsName_parenthesis
      rw [hcallee]
      apply hcall.imp
      intro ts hts
      rcases hts with ⟨t, _, rfl, ht, opening, inner, closing, rfl, hopening, ⟨es', hall, hread⟩,
        hclosing⟩
      exact ⟨_, .call hall, .bare (.call ht hopening hread hclosing)⟩
  | cons q qs =>
      have hcallee := (writes_qualifiers (p := p) (hqualifiers q qs rfl) qs).access function
        writesNames_calleePartText (Or.inl rfl)
      have hcall := hcallee.append harguments (not_ledByWord_cons (by decide) _)
        fun _ _ => endsName_parenthesis
      rw [calleeText_cons]
      apply hcall.imp
      intro ts hts
      rcases hts with ⟨_, _, rfl, ⟨front, point, t, quoted, rfl, ⟨e, hqualified, hfront⟩, hpoint,
        ht⟩, opening, inner, closing, rfl, hopening, ⟨es', hall, hread⟩, hclosing⟩
      have hderives := Derives.qualifiedCall hfront hqualified hpoint ht hopening hread hclosing
      exact ⟨_, .call hall, by simpa using hderives⟩

/-! ## Operations -/

/-- A text that is read as one more token than another one. -/
theorem Writes.headed {follow : Option Char → Prop} {text text' : List Char}
    {Made : List Token → Prop} {payload : Payload} (h : Writes p follow text Made)
    (hlexes : ∀ payloads, Lexes p follow text payloads →
      Lexes p follow text' (payload :: payloads)) :
    Writes p follow text' fun ts => ∃ t ts', ts = t :: ts' ∧ t.payload = payload ∧ Made ts' := by
  rcases h with ⟨payloads, htext, hmade⟩
  refine ⟨payload :: payloads, hlexes payloads htext, fun ts hts => ?_⟩
  rcases List.map_eq_cons_iff.mp hts with ⟨t, ts', rfl, ht, hts'⟩
  exact ⟨t, ts', rfl, ht, hmade ts' hts'⟩

/-- A percent sign behind its operand is read back. -/
theorem Written.percent {e : Expr} (h : Written p e) : Written p (.unary .percent e span) := by
  have hoperand := h.atLeast (n := postfixLevel) (by decide) (by decide) (by decide)
  have hpercent := hoperand.snoc Lexes.percent (by decide) (delimits_some (by cases p <;> decide))
  apply (hpercent.before fun _ _ => trivial).imp
  intro ts hts
  rcases hts with ⟨front, t, rfl, ⟨e', halike, hread⟩, ht⟩
  have hread' := Derives.percent hread ht
  exact .of_level rfl (by decide : 0 ≤ postfixLevel) (.unary halike) hread'

/-- An operator in front of its operand, with the blank that it needs. -/
theorem writes_prefixed {op : Operator} {r : Rendered} {Made : List Token → Prop}
    (hop : op.isPrefix = true) (h : Writes p (Delimits p) (r.atLeast prefixLevel) Made) :
    Writes p (Delimits p) (renderUnary op r).text fun ts =>
      ∃ t ts', ts = t :: ts' ∧ t.payload = .operator op ∧ Made ts' := by
  have hsign : ∀ c, op.spelling.toList = [c] → op ≠ .notWord → op.isPostfix = false →
      (renderUnary op r).text = [c] ++ spaceOperatorWord (r.atLeast prefixLevel) := by
    intro c hspelling hword hpercent
    simp only [renderUnary, hpercent, hspelling, hword, Bool.false_eq_true, ↓reduceIte,
      decide_false, Bool.false_or, spaceOperatorWord]
    split <;> simp
  cases op with
  | minus =>
      rw [hsign '-' (by decide) (by decide) rfl]
      exact Writes.cons Lexes.minus h.spaceOperatorWord (not_ledByWord_spaceOperatorWord _)
        fun _ _ => trivial
  | notSign =>
      rw [hsign '!' (by decide) (by decide) rfl]
      exact Writes.cons Lexes.notSign h.spaceOperatorWord (not_ledByWord_spaceOperatorWord _)
        fun _ _ => trivial
  | notWord =>
      have htext : (renderUnary .notWord r).text =
          "Not".toList ++ ' ' :: r.atLeast prefixLevel := by
        simp [renderUnary, Operator.isPostfix, Operator.spelling]
      rw [htext]
      exact h.headed fun _ hlexes => Lexes.word rfl hlexes
  | _ => simp [Operator.isPrefix] at hop

/-- An operator in front of its operand gives its own level. -/
theorem level_renderUnary {op : Operator} (hop : op.isPrefix = true) (r : Rendered) :
    (renderUnary op r).level = prefixLevel := by
  have hpercent : op.isPostfix = false := by
    cases op <;> simp_all [Operator.isPrefix, Operator.isPostfix]
  simp only [renderUnary, hpercent, Bool.false_eq_true, ↓reduceIte]

/-- An operation on one operand is read back. -/
theorem Written.unary {op : Operator} {e : Expr} (hop : op.isPrefix = true ∨ op = .percent)
    (h : Written p e) : Written p (.unary op e span) := by
  rcases hop with hop | rfl
  · have hoperand := h.atFloor (k := operandLevel) (Nat.le_refl _)
    have hlevel : ((Expr.unary op e span).render p).level = prefixLevel := by
      rw [Expr.render, level_renderUnary hop]
    apply Written.of_delimited _ rfl
    rw [Expr.render]
    apply (writes_prefixed hop hoperand).imp
    intro ts hts
    rcases hts with ⟨t, ts', rfl, ht, e', halike, hread⟩
    have hread' := Derives.unary hop ht hread
    exact .of_level hlevel (by decide) (.unary halike) hread'
  · exact h.percent

/-- A binary operation on rendered operands, by the floors of the operator. -/
theorem renderBinary_eq {op : Operator} {n : Nat} {g : Associativity}
    (hop : op.binding? = some (n, g)) (l r : Rendered) :
    renderBinary op l r = ⟨l.atLeast (leftFloor n g) ++
      ' ' :: (op.spelling.toList ++ ' ' :: r.atLeast (rightFloor n g)), n⟩ := by
  cases g <;> simp [renderBinary, hop, leftFloor, rightFloor]

/-- An operation on two operands is read back. -/
theorem Written.binary {op : Operator} {l r : Expr} (hop : op.binding?.isSome = true)
    (hl : Written p l) (hr : Written p r) : Written p (.binary op l r span) := by
  rcases Option.isSome_iff_exists.mp hop with ⟨⟨n, g⟩, hbinding⟩
  have hlt := Operator.binding_lt hbinding
  have hleft := hl.atFloor (Nat.le_trans (leftFloor_le_succ n g) hlt)
  have hright := hr.atFloor (rightFloor_le_operandLevel hbinding)
  have hoperator := hright.headed fun _ hlexes => Lexes.binaryOperator hop hlexes
  have hwhole := hleft.spaced hoperator (delimits_some (by cases p <;> decide))
  have hlevel : ((Expr.binary op l r span).render p).level = n := by
    rw [Expr.render, renderBinary_eq hbinding]
  apply Written.of_delimited _ rfl
  rw [Expr.render, renderBinary_eq hbinding]
  apply hwhole.imp
  intro ts hts
  rcases hts with ⟨front, _, rfl, ⟨l', hlalike, hlread⟩, t, back, rfl, ht, r', hralike, hrread⟩
  have hread := Derives.binary hbinding hlread ht hrread
  rw [← phraseAt_natCast (Nat.le_of_lt hlt)] at hread
  exact .of_level hlevel (Int.natCast_nonneg n) (.binary hlalike hralike) hread

/-! ## Chains -/

/-- More clauses behind the clauses of a chain. -/
theorem Derives.clauses_append {es es' : List Expr} {ts ts' : List Token} {t : Token}
    (h : Derives (.clauses es) ts) (ht : t.Chains) (h' : Derives (.clauses es') ts') :
    Derives (.clauses (es ++ es')) (ts ++ t :: ts') := by
  induction h' using Derives.clauses_induct with
  | first he => exact .nextClause h ht he
  | next _ hseparator he ih =>
      have hmore := Derives.nextClause ih hseparator he
      simpa using hmore

/-- Chained expressions are read back as clauses that spell them. -/
theorem writes_clauses (hne : es ≠ []) (h : ∀ e ∈ es, Written p e) :
    Writes p (Delimits p) ((chainGap p).intercalate (es.map fun e => (e.render p).text))
      fun ts => ∃ clauses, Expr.Spelled p es clauses ∧ Derives (.clauses clauses) ts := by
  refine Writes.list
    (fun es ts => ∃ clauses, Expr.Spelled p es clauses ∧ Derives (.clauses clauses) ts)
    (chainGap_eq p) ?_ ?_ hne fun e he => (h e he).delimited
  · intro e ts hread
    exact hread.clauses
  · rintro front ts t e ts' hfront ⟨clauses, hspelled, hclauses⟩ ht hread
    rcases hread.clauses with ⟨more, hmore, hread⟩
    exact ⟨clauses ++ more, hspelled.append hmore hfront (by simp),
      hclauses.clauses_append ht hread⟩

/-- A chain is read back. -/
theorem Written.chain (hlength : 2 ≤ es.length) (h : ∀ e ∈ es, Written p e) :
    Written p (.chain es span) := by
  have hne : es ≠ [] := by
    rintro rfl
    simp at hlength
  apply Written.of_delimited _ rfl
  rw [Expr.render_chain_text]
  apply (writes_clauses hne h).imp
  intro ts hts
  rcases hts with ⟨clauses, hspelled, hread⟩
  refine .several ?_ (Nat.le_trans hlength hspelled.length_le) (hspelled.alike hlength) hread
  rw [Expr.render_chain hlength]

/-! ## All expressions -/

namespace Expr

/-- Whether the digits of a number in front of its point are no more than can be read. -/
def DigitsBounded : Expr → Prop
  | literal (.number _ text) _ => digitCount text.toList ≤ maxWholeDigits
  | _ => True

/-- Whether the first qualifier of a function name stands for nothing else. -/
def PlainlyQualified : Expr → Prop
  | call _ _ (q :: _) _ => q ∉ contextKeywords
  | _ => True

instance : DecidablePred DigitsBounded
  | literal (.number _ text) _ =>
      inferInstanceAs (Decidable (digitCount text.toList ≤ maxWholeDigits))
  | literal (.logical _) _ | literal (.text _) _ | name _ _ _ _ | member _ _ _ | call _ _ _ _
  | record _ _ | table _ _ | unary _ _ _ | binary _ _ _ _ | chain _ _ | hole => .isTrue trivial

instance : DecidablePred PlainlyQualified
  | call _ _ (q :: _) _ => inferInstanceAs (Decidable (q ∉ contextKeywords))
  | call _ _ [] _ | literal _ _ | name _ _ _ _ | member _ _ _ | record _ _ | table _ _
  | unary _ _ _ | binary _ _ _ _ | chain _ _ | hole => .isTrue trivial

/-- Whether what is written for a number has a value. -/
def NumberKept : Expr → Prop
  | literal (.number _ text) _ =>
      (numberValue (String.ofList (plainNumber text.toList))).isOk = true
  | _ => True

instance : DecidablePred NumberKept
  | literal (.number _ text) _ =>
      inferInstanceAs
        (Decidable ((numberValue (String.ofList (plainNumber text.toList))).isOk = true))
  | literal (.logical _) _ | literal (.text _) _ | name _ _ _ _ | member _ _ _ | call _ _ _ _
  | record _ _ | table _ _ | unary _ _ _ | binary _ _ _ _ | chain _ _ | hole => .isTrue trivial

/-- What is written in such a way that it can be read back, without the parts of it. -/
structure Rereadable (e : Expr) : Prop where
  shaped : e.Shaped
  number : e.NumberKept
  qualified : e.PlainlyQualified

/-- What can be written and read back, without the parts of it, by the digits of numbers. -/
structure Writable (e : Expr) : Prop where
  shaped : e.Shaped
  digits : e.DigitsBounded
  qualified : e.PlainlyQualified

/-- A number with few enough digits has a value after it was written. -/
theorem Writable.rereadable {e : Expr} (h : e.Writable) : e.Rereadable where
  shaped := h.shaped
  qualified := h.qualified
  number := by
    rcases h with ⟨hshaped, hdigits, -⟩
    unfold NumberKept
    split
    · rename_i number text span
      have hnumeral : Numeral text.toList := hshaped
      rcases hnumeral.numberValue_plain hdigits with ⟨value, hvalue⟩
      rw [hvalue]
      rfl
    · trivial

end Expr

/-- Every expression that is written in such a way that it can be read back is read back. -/
theorem written_of_rereadable {e : Expr} (h : e.Every Expr.Rereadable) : Written p e := by
  induction e using Expr.children_induct with
  | step e ih =>
      rcases Expr.every_iff.mp h with ⟨hreadable, hchildren⟩
      have hparts : ∀ c ∈ e.children, Written p c := fun c hc => ih c hc (hchildren c hc)
      cases e with
      | literal value span =>
          apply Written.literal
          rintro number written rfl
          refine ⟨hreadable.shaped, ?_⟩
          have hkept := hreadable.number
          unfold Expr.NumberKept at hkept
          cases hvalue : numberValue (String.ofList (plainNumber written.toList)) with
          | ok value => exact ⟨value, rfl⟩
          | error n => simp [hvalue, Except.isOk, Except.toBool] at hkept
      | name identifier identifierSpan chain span => exact Written.name hreadable.shaped
      | member base chain span =>
          have hbase := (Expr.every_iff.mp (hchildren base (by simp [Expr.children]))).1
          exact (hparts base (by simp [Expr.children])).member hbase.shaped hreadable.shaped
      | call function arguments qualifiers span =>
          apply Written.call hparts
          rintro q qs rfl
          exact hreadable.qualified
      | record fields span =>
          exact Written.record fun field hfield => hparts field.value (List.mem_map_of_mem hfield)
      | table elements span => exact Written.table hparts
      | unary op operand span =>
          exact (hparts operand (by simp [Expr.children])).unary hreadable.shaped
      | binary op l r span =>
          exact Written.binary hreadable.shaped (hparts l (by simp [Expr.children]))
            (hparts r (by simp [Expr.children]))
      | chain clauses span => exact Written.chain hreadable.shaped hparts
      | hole => exact absurd hreadable.shaped id

/-- Every expression that can be written is read back. -/
theorem written_of_writable {e : Expr} (h : e.Every Expr.Writable) : Written p e :=
  written_of_rereadable (h.imp fun _ hpart => hpart.rereadable)

end FormulaLint
