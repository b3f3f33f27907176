import FormulaLint.Proofs.Parentheses.Sizes
import FormulaLint.Proofs.RoundTrip.Places

/-!
# What tokens make up

An expression that tokens make up is a group or is put together by its outermost operator, and its
parts are made up by tokens that stand between the others.  Members go to the last clause of a
chain, so what is in front of a member can be told from the whole.

Main results:

- Theorem {lit}`Phrase.MadeOf.headed`: the outermost construct of an expression.
- Theorem {lit}`Expr.attach_singleton_inj`: what stands in front of a member.
-/

namespace FormulaLint

/-- Tokens that make up a phrase, with numerals for their numbers. -/
structure Phrase.MadeOf (phrase : Phrase) (ts : List Token) : Prop where
  derives : Derives phrase ts
  numerals : ∀ t ∈ ts, ∀ number, t.payload = .number number → Numeral number.toList

namespace Phrase.MadeOf

variable {phrase : Phrase} {ts : List Token}

/-- The trees of a phrase have the shape of the grammar. -/
theorem shaped (h : phrase.MadeOf ts) : phrase.Shaped :=
  h.derives.shaped h.numerals

/-- The tokens of a phrase are matched and hold its words. -/
theorem spreads (h : phrase.MadeOf ts) : Spreads phrase.size ts :=
  h.derives.spreads

end Phrase.MadeOf

/-- The outermost construct of an expression on the given level or a tighter one. -/
inductive Headed (n : Int) : Expr → List Token → Prop where
  | group {opening closing : Token} {e : Expr} {ts : List Token}
      (hopening : opening.Opens .parenthesis) (h : (Phrase.chain e).MadeOf ts)
      (hclosing : closing.Closes .parenthesis) : Headed n e (opening :: (ts ++ [closing]))
  | literal {t : Token} (value : Literal) (span : Span) : Headed n (.literal value span) [t]
  | name {t : Token} (identifier : Identifier) (identifierSpan span : Span) :
      Headed n (.name identifier identifierSpan [] span) [t]
  | call {t opening closing : Token} {es : List Expr} {ts : List Token} (name : String)
      (span : Span) (ht : t.IsWord) (hopening : opening.Opens .parenthesis)
      (h : (Phrase.arguments es).MadeOf ts) (hclosing : closing.Closes .parenthesis) :
      Headed n (.call name es [] span) (t :: opening :: (ts ++ [closing]))
  | qualifiedCall {e : Expr} {front ts : List Token} {qualifiers : List String}
      {point t opening closing : Token} {es : List Expr} (name : String) (span : Span)
      (hbase : (Phrase.member e).MadeOf front) (hpoint : point.IsWord) (ht : t.IsWord)
      (hopening : opening.Opens .parenthesis) (h : (Phrase.arguments es).MadeOf ts)
      (hclosing : closing.Closes .parenthesis) :
      Headed n (.call name es qualifiers span)
        (front ++ point :: t :: opening :: (ts ++ [closing]))
  | record {opening closing : Token} {fs : List Field} {ts : List Token} (span : Span)
      (hopening : opening.IsWord) (h : (Phrase.fields fs).MadeOf ts) (hclosing : closing.IsWord) :
      Headed n (.record fs span) (opening :: (ts ++ [closing]))
  | table {opening closing : Token} {es : List Expr} {ts : List Token} (span : Span)
      (hopening : opening.IsWord) (h : (Phrase.elements es).MadeOf ts) (hclosing : closing.IsWord) :
      Headed n (.table es span) (opening :: (ts ++ [closing]))
  | access {e : Expr} {ts : List Token} {separator t : Token} (segment : Segment) (nameSpan : Span)
      (h : (Phrase.member e).MadeOf ts) (hseparator : separator.IsWord) (ht : t.IsWord) :
      Headed n (accessMember e segment nameSpan) (ts ++ [separator, t])
  | percent {e : Expr} {ts : List Token} {t : Token} (span : Span) (hn : n ≤ postfixLevel)
      (h : (Phrase.suffixed e).MadeOf ts) (ht : t.IsWord) :
      Headed n (.unary .percent e span) (ts ++ [t])
  | unary {op : Operator} {e : Expr} {t : Token} {ts : List Token} (span : Span)
      (hn : n ≤ prefixLevel) (hop : op.isPrefix = true) (ht : t.IsWord)
      (h : (Phrase.level operandLevel e).MadeOf ts) : Headed n (.unary op e span) (t :: ts)
  | binary {op : Operator} {k : Nat} {g : Associativity} {l r : Expr} {front ts : List Token}
      {t : Token} (span : Span) (hn : n ≤ k) (hop : op.binding? = some (k, g))
      (hl : (Phrase.level (leftFloor k g) l).MadeOf front) (ht : t.IsWord)
      (hr : (Phrase.level (rightFloor k g) r).MadeOf ts) :
      Headed n (.binary op l r span) (front ++ t :: ts)

namespace Phrase.MadeOf

variable {e : Expr} {ts : List Token} {n : Int} {k : Nat}

/-- The outermost construct of a primary. -/
theorem headed_primary (h : (Phrase.primary e).MadeOf ts) : Headed n e ts := by
  rcases h with ⟨h, hts⟩
  cases h with
  | literal hliteral => exact .literal _ _
  | name ht => exact .name _ _ _
  | global ht | field ht => exact .name _ _ _
  | call hname hopening harguments hclosing =>
      exact .call _ _ (Token.isWord_of_payload hname (by simp) (by simp)) hopening
        ⟨harguments, fun t ht => hts t (by simp [ht])⟩ hclosing
  | group hopening hchain hclosing =>
      exact .group hopening ⟨hchain, fun t ht => hts t (by simp [ht])⟩ hclosing
  | record hopening hfields hclosing =>
      exact .record _ (Token.isWord_of_payload hopening (by simp) (by simp))
        ⟨hfields, fun t ht => hts t (by simp [ht])⟩
        (Token.isWord_of_payload hclosing (by simp) (by simp))
  | table hopening helements hclosing =>
      exact .table _ (Token.isWord_of_payload hopening (by simp) (by simp))
        ⟨helements, fun t ht => hts t (by simp [ht])⟩
        (Token.isWord_of_payload hclosing (by simp) (by simp))

/-- The outermost construct of a primary with members. -/
theorem headed_member (h : (Phrase.member e).MadeOf ts) : Headed n e ts := by
  rcases h with ⟨h, hts⟩
  cases h with
  | bare h => exact headed_primary ⟨h, hts⟩
  | access hbase _ _ hseparator hname =>
      exact .access _ _ ⟨hbase, fun t ht => hts t (by simp [ht])⟩
        (Token.isWord_of_payload hseparator (by simp) (by simp))
        (Token.isWord_of_payload hname (by simp) (by simp))
  | qualifiedCall hbase _ hpoint hname hopening harguments hclosing =>
      exact .qualifiedCall _ _ ⟨hbase, fun t ht => hts t (by simp [ht])⟩
        (Token.isWord_of_payload hpoint (by simp) (by simp))
        (Token.isWord_of_payload hname (by simp) (by simp)) hopening
        ⟨harguments, fun t ht => hts t (by simp [ht])⟩ hclosing

/-- The outermost construct of an operand with percent signs. -/
theorem headed_suffixed (hn : n ≤ postfixLevel) (h : (Phrase.suffixed e).MadeOf ts) :
    Headed n e ts := by
  rcases h with ⟨h, hts⟩
  cases h with
  | unsuffixed h => exact headed_member ⟨h, hts⟩
  | percent he ht =>
      exact .percent _ hn ⟨he, fun t ht => hts t (by simp [ht])⟩
        (Token.isWord_of_payload ht (by simp) (by simp))

/-- The outermost construct of an expression on a level of operators. -/
theorem headed_level (hn : n ≤ k) (h : (Phrase.level k e).MadeOf ts) : Headed n e ts := by
  rcases h with ⟨h, hts⟩
  generalize hphrase : Phrase.level k e = phrase at h
  induction h generalizing k with
  | operand h =>
      obtain ⟨rfl, rfl⟩ := Phrase.level.inj hphrase
      exact headed_suffixed (by simp only [operandLevel, postfixLevel] at *; omega) ⟨h, hts⟩
  | unary hop ht he =>
      obtain ⟨rfl, rfl⟩ := Phrase.level.inj hphrase
      exact .unary _ hn hop (Token.isWord_of_payload ht (by simp) (by simp))
        ⟨he, fun t ht => hts t (by simp [ht])⟩
  | looser h ih =>
      obtain ⟨rfl, rfl⟩ := Phrase.level.inj hphrase
      exact ih (by omega) hts rfl
  | leftGrouped hop hl ht hr | rightGrouped hop hl ht hr | ungrouped hop hl ht hr =>
      obtain ⟨rfl, rfl⟩ := Phrase.level.inj hphrase
      exact .binary _ hn hop ⟨hl, fun t ht => hts t (by simp [ht])⟩
        (Token.isWord_of_payload ht (by simp) (by simp)) ⟨hr, fun t ht => hts t (by simp [ht])⟩
  | _ => simp at hphrase

/-- The outermost construct of an expression on any level but that of members. -/
theorem headed (hpositive : 0 ≤ n) (hn : n ≠ memberLevel) (h : (phraseAt n e).MadeOf ts) :
    Headed n e ts := by
  by_cases hprefix : n ≤ prefixLevel
  · rw [phraseAt_of_le hprefix] at h
    exact headed_level (by omega) h
  · by_cases hpostfix : n = postfixLevel
    · subst hpostfix
      rw [phraseAt_postfixLevel] at h
      exact headed_suffixed (Int.le_refl _) h
    · rw [phraseAt_of_lt (by omega) hpostfix] at h
      exact headed_member h

end Phrase.MadeOf

/-! ## Members and what stands in front of them -/

namespace Expr

/-- Members behind members. -/
theorem access_access (members members' : List Segment) (e : Expr) :
    (e.access members).access members' = e.access (members ++ members') := by
  cases e <;> simp [access]

/-- Members behind members of the last clause. -/
theorem attach_attach (members members' : List Segment) (e : Expr) :
    (e.attach members).attach members' = e.attach (members ++ members') := by
  cases e with
  | chain es span =>
      by_cases hes : es = []
      · subst hes
        simp [attach, accessLast]
      · rcases exists_snoc hes with ⟨init, last, rfl⟩
        simp [attach, access_access]
  | name _ _ _ _ | member _ _ _ => simp [attach, access]
  | literal _ _ | call _ _ _ _ | record _ _ | table _ _ | unary _ _ _ | binary _ _ _ _ | hole =>
      rfl

/-- Members behind a chain make a chain, and only there. -/
theorem isChain_attach (members : List Segment) (e : Expr) :
    (e.attach members).isChain = e.isChain := by
  cases e <;> rfl

/-- Members behind a chain stand behind its last clause. -/
theorem clauses_attach {e : Expr} {members : List Segment} (h : e.isChain = true) :
    (e.attach members).clauses = accessLast members e.clauses := by
  cases e with
  | chain _ _ => rfl
  | _ => simp [isChain] at h

/-- One more member of what was read is one more member of what canonical forms show. -/
theorem canonical_accessMember (e : Expr) (segment : Segment) (span : Span) :
    (accessMember e segment span).canonical = e.canonical.attach [segment.form] := by
  cases e with
  | name identifier identifierSpan own span => simp [accessMember, canonical, form, attach, access]
  | member base own span =>
      simp only [accessMember, canonical, form, List.map_append, List.map_singleton, attach_attach]
  | literal _ _ | call _ _ _ _ | record _ _ | table _ _ | unary _ _ _ | binary _ _ _ _ | chain _ _
  | hole => rfl

/-- An expression without its members, and these. -/
def stem : Expr → Expr × List Segment
  | name identifier identifierSpan own span => (name identifier identifierSpan [] span, own)
  | member base own _ => (base, own)
  | e => (e, [])

/-- Members behind an expression leave its stem as it is. -/
theorem stem_access (members : List Segment) (e : Expr) :
    (e.access members).stem = (e.stem.1, e.stem.2 ++ members) := by
  cases e <;> simp [access, stem]

variable {e e' : Expr} {segment segment' : Segment}

/-- What can be shown is told by its stem and its members. -/
theorem Showable.stem_inj (h : e.Showable) (h' : e'.Showable) (heq : e.stem = e'.stem) : e = e' := by
  -- the stem of members is no name, and there are some members
  have hmember : ∀ {base x : Expr} {own : List Segment} {span : Span},
      (member base own span).Showable → x.isReference = false →
        (member base own span).stem ≠ x.stem := by
    rintro base x own span ⟨-, -, -, hne, -⟩ hx hstem
    refine hne (congrArg Prod.snd hstem |>.trans ?_)
    cases x <;> simp_all [isReference, stem]
  have hname : ∀ {x : Expr} {identifier : Identifier} {identifierSpan span : Span}
      {own : List Segment}, x.Showable → (name identifier identifierSpan own span).stem = x.stem →
        x = name identifier identifierSpan own span := by
    intro x identifier identifierSpan span own hx hstem
    cases x with
    | name _ _ _ _ => simp_all [stem]
    | member base _ _ =>
        have hbase : name identifier identifierSpan [] span = base := congrArg Prod.fst hstem
        subst hbase
        simp [Showable, isReference] at hx
    | _ => simp [stem] at hstem
  cases e with
  | name _ _ _ _ => exact (hname h' heq).symm
  | member base own span =>
      cases e' with
      | name _ _ _ _ => exact hname h heq.symm
      | member base' own' span' =>
          obtain ⟨rfl, rfl⟩ := Prod.mk.inj heq
          rw [h.1, h'.1]
      | _ => exact absurd heq (hmember h rfl)
  | _ =>
      cases e' with
      | name _ _ _ _ => exact hname h heq.symm
      | member _ _ _ => exact absurd heq.symm (hmember h' rfl)
      | _ => exact congrArg Prod.fst heq

/-- Members of what is no chain tell what they are members of. -/
theorem access_singleton_inj (h : e.Showable) (h' : e'.Showable)
    (heq : e.access [segment] = e'.access [segment']) : e = e' := by
  have hstems := congrArg stem heq
  rw [stem_access, stem_access] at hstems
  obtain ⟨hbase, hmembers⟩ := Prod.mk.inj hstems
  exact h.stem_inj h' (Prod.ext hbase (List.append_inj_left' hmembers rfl))

/-- Members tell what they are members of. -/
theorem attach_singleton_inj (h : e.Every Showable) (h' : e'.Every Showable)
    (heq : e.attach [segment] = e'.attach [segment']) : e = e' := by
  have hshape := (every_iff.mp h).1
  have hshape' := (every_iff.mp h').1
  have hsame : e.isChain = e'.isChain := by
    rw [← isChain_attach [segment], heq, isChain_attach]
  cases he : e.isChain with
  | false =>
      rw [attach_of_not_chain he, attach_of_not_chain (hsame ▸ he)] at heq
      exact access_singleton_inj hshape hshape' heq
  | true =>
      cases e with
      | chain es span =>
          cases e' with
          | chain es' span' =>
              rcases exists_snoc (show es ≠ [] from hshape.clauses_ne_nil) with ⟨init, last, rfl⟩
              rcases exists_snoc (show es' ≠ [] from hshape'.clauses_ne_nil)
                with ⟨init', last', rfl⟩
              rw [attach, attach, accessLast_snoc, accessLast_snoc] at heq
              obtain ⟨hclauses, -⟩ := chain.inj heq
              obtain ⟨rfl, hlast⟩ := List.append_inj' hclauses rfl
              have hends := access_singleton_inj
                (every_iff.mp ((every_iff.mp h).2 last (by simp [children]))).1
                (every_iff.mp ((every_iff.mp h').2 last' (by simp [children]))).1
                (List.singleton_inj.mp hlast)
              rw [hends, hshape.1, hshape'.1]
          | _ => simp [isChain] at hsame
      | _ => simp [isChain] at he

/-- Members make references, or chains that end with one. -/
theorem attach_kind (members : List Segment) (e : Expr) :
    (e.attach members).isReference = true ∨ (e.attach members).isChain = true := by
  cases e <;> simp [attach, access, isReference, isChain]

/-- What is read with one more member shows nothing but a reference or a chain. -/
theorem canonical_accessMember_ne {span : Span} (hreference : e'.isReference = false)
    (hchain : e'.isChain = false) : (accessMember e segment span).canonical ≠ e' := by
  rintro rfl
  rw [canonical_accessMember] at hreference hchain
  rcases attach_kind [segment.form] e.canonical with h | h
  · rw [h] at hreference
    cases hreference
  · rw [h] at hchain
    cases hchain

end Expr

end FormulaLint
