import FormulaLint.Proofs.RoundTrip.Places

/-!
# Literals, names and members are read back

A literal or a name is one token.  Members stand behind a name or behind an expression that has no
members of its own, each with its separator; reading them one after the other puts them into the
chain of the base.  The parts of a qualified function name are read as members as well, until the
parenthesis shows that they belong to a call.

Main results:

- Theorem {lit}`Writes.members`: members behind a base keep what each of them keeps.
- Theorem {lit}`Written.literal`, {lit}`Written.name` and {lit}`Written.member`: what is read back.
-/

namespace FormulaLint

variable {p : Profile} {span : Span}

/-! ## Literals -/

/-- A literal of one token is read back when the token stands for a literal written alike. -/
theorem Written.of_token {value : Literal} {payload : Payload} {follow : Option Char → Prop}
    (h : Lexes p follow (value.render p.decimalChar) [payload])
    (hfollow : ∀ next, Delimits p next → follow next)
    (hread : ∀ t : Token, t.payload = payload → ∃ value', t.literal? = some value' ∧
      (∀ point, value'.render point = value.render point) ∧ value'.form = value.form) :
    Written p (.literal value span) := by
  apply Written.of_delimited _ rfl
  apply ((Writes.single h).before hfollow).imp
  intro ts hts
  rcases hts with ⟨t, rfl, ht⟩
  rcases hread t ht with ⟨value', hliteral, hrender, hform⟩
  have hread' := Derives.bare (.literal hliteral)
  exact .of_level rfl (by decide : 0 ≤ primaryLevel) (.literal hrender hform) hread'

/-- A literal is read back, if what is written for its number has a value. -/
theorem Written.literal {value : Literal}
    (h : ∀ number written, value = .number number written → Numeral written.toList ∧
      ∃ value', numberValue (String.ofList (plainNumber written.toList)) = .ok value') :
    Written p (.literal value span) := by
  cases value with
  | logical value =>
      apply Written.of_token (Lexes.logical value) fun _ hnext => hnext.endsName
      intro t ht
      exact ⟨.logical value, by simp [Token.literal?, ht], fun _ => rfl, rfl⟩
  | text value =>
      apply Written.of_token (Lexes.text value) fun _ hnext => hnext.ne_quote
      intro t ht
      exact ⟨.text value, by simp [Token.literal?, ht], fun _ => rfl, rfl⟩
  | number number written =>
      rcases h number written rfl with ⟨hnumeral, value, hvalue⟩
      have hplain := hnumeral.plain
      have hwritten : ∀ point, (Literal.number number written).render point =
          (plainNumber written.toList).map fun c => if c = '.' then point else c :=
        numberText_eq hnumeral.ne_nil
      have hlexes := Lexes.number (p := p) hplain
      rw [← hwritten] at hlexes
      apply Written.of_token hlexes fun _ hnext => hnext.endsNumber
      intro t ht
      refine ⟨.number value (String.ofList (plainNumber written.toList)), ?_, ?_, ?_⟩
      · simp [Token.literal?, ht, hvalue]
      · intro point
        have hagain : (String.ofList (plainNumber written.toList)).toList ≠ [] := by
          rw [String.toList_ofList]
          exact hplain.numeral.ne_nil
        have htext : numberText value (String.ofList (plainNumber written.toList)) point = _ :=
          numberText_eq hagain point
        rw [String.toList_ofList, hplain.plainNumber_eq] at htext
        rw [hwritten]
        exact htext
      · rw [Literal.form, Literal.form, String.toList_ofList, hplain.plainNumber_eq]

/-! ## Members -/

/-- A way of writing names that are read as such in front of a separator. -/
structure WritesNames (p : Profile) (follow : Option Char → Prop)
    (write : String → List Char) : Prop where
  lexes : ∀ name, ∃ quoted, Lexes p follow (write name) [.identifier name quoted]
  not_ledByWord : ∀ name, ¬ LedByWord (write name)
  head : ∀ name, ∃ c cs, write name = c :: cs ∧ c.isDigit = false
  point : follow (some '.')
  mark : follow (some '!')

/-- What starts a name is no digit. -/
theorem not_isDigit_of_start {c : Char} (hc : c = '\'' ∨ Text.isIdentifierStart c = true) :
    c.isDigit = false := by
  by_cases hdigit : c.isDigit = true
  · rcases hc with rfl | hc
    · decide
    · rw [not_isIdentifierStart_of_isDigit hdigit] at hc
      exact absurd hc (by decide)
  · simpa using hdigit

/-- Names as members. -/
theorem writesNames_nameText : WritesNames p EndsName nameText where
  lexes name := ⟨_, Lexes.name name⟩
  not_ledByWord name := by
    have hends : EndsWord ([] : List Char).head? := fun c hc => by simp at hc
    have hname := not_ledByWord_nameText name hends
    rwa [List.append_nil] at hname
  head name := by
    rcases nameText_eq_cons name with ⟨c, cs, htext, hc⟩
    exact ⟨c, cs, htext, not_isDigit_of_start hc⟩
  point := endsName_some (by decide) (by decide) (by decide)
  mark := endsName_some (by decide) (by decide) (by decide)

/-- Names as parts of a function name. -/
theorem writesNames_calleePartText :
    WritesNames p (fun next => EndsName next ∧ blankOrEnd next = false) calleePartText where
  lexes name := ⟨_, Lexes.calleePart name⟩
  not_ledByWord := not_ledByWord_calleePartText
  head name := by
    unfold calleePartText
    split
    · rename_i hword
      have hwords : ∀ w ∈ operatorWords, ∃ c cs, w.toList = c :: cs ∧ c.isDigit = false := by
        simp [operatorWords]
      exact hwords name (by simpa using hword)
    · rcases nameText_eq_cons name with ⟨c, cs, htext, hc⟩
      exact ⟨c, cs, htext, not_isDigit_of_start hc⟩
  point := ⟨endsName_some (by decide) (by decide) (by decide), by decide⟩
  mark := ⟨endsName_some (by decide) (by decide) (by decide), by decide⟩

/-- What is said of an expression and the members read so far is kept by one more member. -/
structure KeptByMembers (Made : List Segment → Expr → Prop) : Prop where
  isLiteral : ∀ {done e}, Made done e → e.isLiteral = false
  access : ∀ {done e segment segment'} (nameSpan : Span), Made done e →
    memberKeys [segment'] = memberKeys [segment] →
      Made (done ++ [segment]) (accessMember e segment' nameSpan)

section

variable {follow : Option Char → Prop} {write : String → List Char} {base : List Char}
  {Made : List Segment → Expr → Prop}

/-- The separator of a member, with a name behind it. -/
theorem Lexes.memberSeparator {op : Operator} (hwrite : WritesNames p follow write)
    (hop : op = .dot ∨ op = .notSign) :
    ∃ c, op.spelling.toList = [c] ∧ c.isAlpha = false ∧ follow (some c) ∧
      Lexes p (fun next => next.any Char.isDigit = false) [c] [.operator op] := by
  rcases hop with rfl | rfl
  · exact ⟨'.', by decide, by decide, hwrite.point, Lexes.point⟩
  · exact ⟨'!', by decide, by decide, hwrite.mark, Lexes.notSign.imp fun _ _ => trivial⟩

/-- A text with one more member behind it. -/
theorem Writes.access {Front : List Token → Prop} {op : Operator} (name : String)
    (hwrite : WritesNames p follow write) (hop : op = .dot ∨ op = .notSign)
    (h : Writes p follow base Front) :
    Writes p follow (base ++ (op.spelling.toList ++ write name)) fun ts =>
      ∃ front separator t quoted, ts = front ++ [separator, t] ∧ Front front ∧
        separator.payload = .operator op ∧ t.payload = .identifier name quoted := by
  rcases Lexes.memberSeparator hwrite hop with ⟨c, hspelling, hletter, hfollow, hseparator⟩
  rcases hwrite.lexes name with ⟨quoted, hname⟩
  rcases hwrite.head name with ⟨d, ds, htext, hdigit⟩
  have hseparated := h.snoc hseparator hletter hfollow
  have hmember := hseparated.append (.single hname) (hwrite.not_ledByWord name) fun rest _ => by
    rw [htext]
    exact hdigit
  rw [hspelling, ← List.append_assoc]
  apply hmember.imp
  intro ts hts
  rcases hts with ⟨ts₁, ts₂, rfl, ⟨front, separator, rfl, hfront, hpayload⟩, t, rfl, ht⟩
  exact ⟨front, separator, t, quoted, by simp, hfront, hpayload, ht⟩

/-- Members behind a base: what one member keeps is kept by all of them. -/
theorem Writes.members (hwrite : WritesNames p follow write) (hkept : KeptByMembers Made)
    {done chain : List Segment}
    (hchain : ∀ segment ∈ chain, segment.separator = .dot ∨ segment.separator = .notSign)
    (h : Writes p follow base fun ts => ∃ e, Made done e ∧ Derives (.member e) ts) :
    Writes p follow
      (base ++ chain.flatMap fun segment => segment.separator.spelling.toList ++ write segment.name)
      fun ts => ∃ e, Made (done ++ chain) e ∧ Derives (.member e) ts := by
  induction chain generalizing base done with
  | nil => simpa using h
  | cons segment chain ih =>
      have hop := hchain segment (by simp)
      have hmore : Writes p follow
          (base ++ (segment.separator.spelling.toList ++ write segment.name))
          fun ts => ∃ e, Made (done ++ [segment]) e ∧ Derives (.member e) ts := by
        apply (h.access segment.name hwrite hop).imp
        intro ts hts
        rcases hts with ⟨front, separator, t, quoted, rfl, ⟨e, hmade, hread⟩, hseparator, ht⟩
        have haccess := Derives.access hread (hkept.isLiteral hmade) hop hseparator ht
        refine ⟨_, ?_, haccess⟩
        exact hkept.access t.span hmade rfl
      have hall := ih (fun s hs => hchain s (by simp [hs])) hmore
      simpa using hall

end

/-- The keys of chains get longer together. -/
theorem memberKeys_snoc {chain done : List Segment} {segment segment' : Segment}
    (h : memberKeys chain = memberKeys done)
    (hsegment : memberKeys [segment'] = memberKeys [segment]) :
    memberKeys (chain ++ [segment']) = memberKeys (done ++ [segment]) := by
  unfold memberKeys at *
  rw [List.map_append, List.map_append, h, hsegment]

/-- A name of the given kind with the members read so far. -/
def NameMade (Kind : Identifier → Prop) (done : List Segment) (e : Expr) : Prop :=
  ∃ identifier identifierSpan chain span, e = .name identifier identifierSpan chain span ∧
    Kind identifier ∧ memberKeys chain = memberKeys done

/-- Members are added to the name that they stand behind. -/
theorem keptByMembers_name (Kind : Identifier → Prop) : KeptByMembers (NameMade Kind) where
  isLiteral := by
    rintro done e ⟨_, _, _, _, rfl, -⟩
    rfl
  access := by
    rintro done e segment segment' nameSpan ⟨_, _, _, _, rfl, hkind, hkeys⟩ hsegment
    exact ⟨_, _, _, _, rfl, hkind, memberKeys_snoc hkeys hsegment⟩

/-- An expression like the given one, with the members read so far. -/
def BaseMade (p : Profile) (base : Expr) (done : List Segment) (e : Expr) : Prop :=
  ∃ base', base.Alike p base' ∧ ((done = [] ∧ e = base') ∨
    ∃ chain span, e = .member base' chain span ∧ memberKeys chain = memberKeys done)

/-- Members are added to an expression that has none. -/
theorem keptByMembers_base {base : Expr} (hliteral : base.isLiteral = false)
    (hreference : base.isReference = false) : KeptByMembers (BaseMade p base) where
  isLiteral := by
    rintro done e ⟨base', halike, ⟨-, rfl⟩ | ⟨_, _, rfl, -⟩⟩
    · rw [halike.isLiteral_eq, hliteral]
    · rfl
  access := by
    rintro done e segment segment' nameSpan ⟨base', halike, hmade⟩ hsegment
    refine ⟨base', halike, Or.inr ?_⟩
    rcases hmade with ⟨rfl, rfl⟩ | ⟨chain, span, rfl, hkeys⟩
    · -- the first member stands behind the expression itself
      refine ⟨[segment'], e.span.cover nameSpan, ?_, hsegment⟩
      have hreference' : e.isReference = false := halike.isReference_eq.trans hreference
      cases e with
      | name _ _ _ _ | member _ _ _ => simp [Expr.isReference] at hreference'
      | _ => rfl
    · exact ⟨_, _, rfl, memberKeys_snoc hkeys hsegment⟩

/-! ## Names and members -/

/-- A keyword for the current record or control needs no quotes. -/
theorem not_needsQuotes_of_keyword {name : String} (h : name ∈ contextKeywords) :
    needsQuotes name = false := by
  have hall : ∀ keyword ∈ contextKeywords, needsQuotes keyword = false := by decide +kernel
  exact hall name h

/-- A name without members is one token. -/
theorem Writes.identifier (identifier : Identifier) :
    Writes p EndsName identifier.render fun ts =>
      ∃ e, NameMade (· = identifier.reread) [] e ∧ Derives (.member e) ts := by
  have hname : ∀ name, Writes p EndsName (nameText name) fun ts =>
      ∃ e, NameMade (· = (Identifier.plain name).reread) [] e ∧ Derives (.member e) ts := by
    intro name
    apply (Writes.single (Lexes.name name)).imp
    intro ts hts
    rcases hts with ⟨t, rfl, ht⟩
    refine ⟨_, ⟨_, _, _, _, rfl, ?_, rfl⟩, .bare (.name ht)⟩
    by_cases hkeyword : name ∈ contextKeywords
    · simp [Identifier.reread, hkeyword, not_needsQuotes_of_keyword hkeyword]
    · simp [Identifier.reread, hkeyword]
  have hglobal : ∀ name, Writes p EndsName (Identifier.global name).render fun ts =>
      ∃ e, NameMade (· = Identifier.global name) [] e ∧ Derives (.member e) ts := by
    intro name
    apply ((Writes.single (Lexes.global name)).before fun _ _ => trivial).imp
    intro ts hts
    rcases hts with ⟨t, rfl, ht⟩
    exact ⟨_, ⟨_, _, _, _, rfl, rfl, rfl⟩, .bare (.global ht)⟩
  cases identifier with
  | plain name => exact hname name
  | context name => exact hname name
  | global name => exact hglobal name
  | field source name =>
      by_cases hempty : source.isEmpty = true
      · -- a field of nothing is written as a global name
        have hrender : (Identifier.field source name).render = (Identifier.global name).render := by
          simp [Identifier.render, hempty]
        have hreread : (Identifier.field source name).reread = .global name := if_pos hempty
        rw [hrender, hreread]
        exact hglobal name
      · have hrender : (Identifier.field source name).render =
            nameText source ++ '[' :: '@' :: (nameText name ++ [']']) := by
          simp [Identifier.render, hempty]
        rw [hrender]
        apply ((Writes.single (Lexes.field source name)).before fun _ _ => trivial).imp
        intro ts hts
        rcases hts with ⟨t, rfl, ht⟩
        exact ⟨_, ⟨_, _, _, _, rfl, (if_neg hempty).symm, rfl⟩, .bare (.field ht)⟩

/-- What is rendered of a name or of members stands on the level of members. -/
theorem phraseAt_renderChain (base : List Char) (chain : List Segment) (e : Expr) :
    phraseAt (renderChain base chain).level e = .member e := by
  unfold renderChain
  split <;> rfl

/-- A name or members are no chain of clauses. -/
theorem level_renderChain (base : List Char) (chain : List Segment) :
    0 ≤ (renderChain base chain).level := by
  unfold renderChain
  split
  · exact (by decide : 0 ≤ primaryLevel)
  · exact (by decide : 0 ≤ memberLevel)

/-- The text of a name or of members. -/
theorem text_renderChain (base : List Char) (chain : List Segment) :
    (renderChain base chain).text = base ++ chainText chain := by
  unfold renderChain
  split
  · rename_i hempty
    have hnil : chain = [] := by simpa using hempty
    simp [hnil, chainText]
  · rfl

/-- Members behind a base are read back when they make up something written alike. -/
theorem Written.of_members {e : Expr} {base : List Char} {chain : List Segment}
    {Made : Expr → Prop} (hrender : e.render p = renderChain base chain)
    (hclosed : e.isClosed = false) (hmade : ∀ e', Made e' → e.Alike p e')
    (h : Writes p EndsName (base ++ chainText chain)
      fun ts => ∃ e', Made e' ∧ Derives (.member e') ts) : Written p e := by
  apply Written.of_delimited _ hclosed
  rw [hrender, text_renderChain]
  apply (h.before fun _ hnext => hnext.endsName).imp
  intro ts hts
  rcases hts with ⟨e', he', hread⟩
  have hlevel : (e.render p).level = (renderChain base chain).level := by rw [hrender]
  apply ReadBack.of_level hlevel (level_renderChain base chain) (hmade e' he')
  rw [phraseAt_renderChain]
  exact hread

/-- A name with its members is read back. -/
theorem Written.name {identifier : Identifier} {identifierSpan : Span} {chain : List Segment}
    (hchain : ∀ segment ∈ chain, segment.separator = .dot ∨ segment.separator = .notSign) :
    Written p (.name identifier identifierSpan chain span) := by
  have hmembers := Writes.members writesNames_nameText (keptByMembers_name _) hchain
    (Writes.identifier (p := p) identifier)
  apply Written.of_members (by rw [Expr.render]) rfl _ hmembers
  rintro e' ⟨_, _, _, _, rfl, hreread, hkeys⟩
  exact .name hreread hkeys

/-- An expression with its members is read back. -/
theorem Written.member {base : Expr} {chain : List Segment} (h : Written p base)
    (hbase : base.Shaped) (hshaped : (Expr.member base chain span).Shaped) :
    Written p (.member base chain span) := by
  rcases hshaped with ⟨hne, hliteral, hreference, hchain⟩
  have hwrites : Writes p EndsName ((base.render p).atLeast primaryLevel) fun ts =>
      ∃ e, BaseMade p base [] e ∧ Derives (.member e) ts := by
    apply ((h.base hbase hliteral hreference).before fun _ _ => trivial).imp
    intro ts hts
    rcases hts with ⟨e', halike, hread⟩
    exact ⟨e', ⟨e', halike, Or.inl ⟨rfl, rfl⟩⟩, hread⟩
  have hmembers := Writes.members writesNames_nameText (keptByMembers_base hliteral hreference)
    hchain hwrites
  apply Written.of_members (by rw [Expr.render]) rfl _ hmembers
  rintro e' ⟨base', halike, ⟨hnil, -⟩ | ⟨segments, _, rfl, hkeys⟩⟩
  · exact absurd hnil hne
  · exact .member halike hkeys

end FormulaLint
