import FormulaLint.Proofs.RoundTrip.Alike
import FormulaLint.Proofs.RoundTrip.Writes

/-!
# Written expressions and the places they stand in

The tokens of a written expression make up an expression of the same level that is written alike;
those of a chain make up clauses.  A place of the grammar takes the levels that bind tight enough,
and parentheses bring everything else to the tightest one.

Main results:

- Theorem {lit}`Derives.loosen`: what is read on a level is read on every looser one.
- Theorem {lit}`Written.atLeast` and {lit}`Written.atFloor`: an expression where a level is
  required.
- Theorem {lit}`Written.unchained`: an expression where no chain may stand.
- Theorem {lit}`Written.base`: an expression with members behind it.
-/

namespace FormulaLint

/-! ## Levels of the grammar -/

/-- The phrase of an expression whose outermost operator has the given level. -/
def phraseAt (level : Int) (e : Expr) : Phrase :=
  if level ≤ prefixLevel then .level level.toNat e
  else if level = postfixLevel then .suffixed e
  else .member e

variable {p : Profile} {e e' : Expr} {ts : List Token} {n m : Int}

/-- Nothing but an operand stands on the tightest level of operators. -/
theorem phraseAt_of_le (h : n ≤ prefixLevel) : phraseAt n e = .level n.toNat e :=
  if_pos h

/-- The level of percent signs. -/
theorem phraseAt_postfixLevel : phraseAt postfixLevel e = .suffixed e :=
  rfl

/-- The level of members and primaries. -/
theorem phraseAt_of_lt (h : prefixLevel < n) (hpercent : n ≠ postfixLevel) :
    phraseAt n e = .member e := by
  rw [phraseAt, if_neg (by omega), if_neg hpercent]

/-- The levels of binary operators and operands. -/
theorem phraseAt_natCast {k : Nat} (hk : k ≤ operandLevel) : phraseAt k e = .level k e := by
  rw [phraseAt_of_le, Int.toNat_natCast]
  simp only [operandLevel, prefixLevel] at *
  omega

/-- An operand is an expression of every looser level. -/
theorem Derives.operand_of_le (hn : n ≤ prefixLevel) (h : Derives (.suffixed e) ts) :
    Derives (phraseAt n e) ts := by
  rw [phraseAt_of_le hn]
  have hle : n.toNat ≤ operandLevel := by
    simp only [prefixLevel, operandLevel] at *
    omega
  exact Derives.of_le hle h.operand

/-- What is read on a level is read on every looser one, but for the level of members, which do
not hold percent signs. -/
theorem Derives.loosen (hle : n ≤ m) (hmember : n ≠ memberLevel) (h : Derives (phraseAt m e) ts) :
    Derives (phraseAt n e) ts := by
  by_cases hm : m ≤ prefixLevel
  · have hn : n ≤ prefixLevel := by omega
    rw [phraseAt_of_le hm] at h
    rw [phraseAt_of_le hn]
    exact Derives.of_le (by omega) h
  · have hlt : prefixLevel < m := by omega
    by_cases hpercent : m = postfixLevel
    · subst hpercent
      by_cases hn : n ≤ prefixLevel
      · exact Derives.operand_of_le hn h
      · have heq : n = postfixLevel := by
          simp only [prefixLevel, postfixLevel, memberLevel] at *
          omega
        rw [heq]
        exact h
    · rw [phraseAt_of_lt hlt hpercent] at h
      by_cases hn : n ≤ prefixLevel
      · exact Derives.operand_of_le hn h.unsuffixed
      · by_cases hn' : n = postfixLevel
        · rw [hn', phraseAt_postfixLevel]
          exact h.unsuffixed
        · rw [phraseAt_of_lt (by omega) hn']
          exact h

/-! ## Expressions read back -/

/-- The tokens make up an expression of the level of the given one that is written alike, or, for
a chain, two clauses or more that spell it. -/
inductive ReadBack (p : Profile) (e : Expr) (ts : List Token) : Prop where
  | one {e' : Expr} (hlevel : 0 ≤ (e.render p).level) (halike : e.Alike p e')
      (h : Derives (phraseAt (e.render p).level e') ts)
  | several {es : List Expr} (hlevel : (e.render p).level = chainLevel) (hlength : 2 ≤ es.length)
      (halike : e.Alike p (.chain es default)) (h : Derives (.clauses es) ts)

namespace Expr

/-- Whether the text of an expression ends with a delimiter of its own. -/
def isClosed : Expr → Bool
  | call _ _ _ _ | record _ _ | table _ _ => true
  | _ => false

end Expr

/-- The text of an expression is read back, wherever it stands. -/
def Written (p : Profile) (e : Expr) : Prop :=
  Writes p (fun next => e.isClosed = true ∨ Delimits p next) (e.render p).text (ReadBack p e)

namespace ReadBack

/-- What is read on the level of an expression is read back. -/
theorem of_level (hlevel : (e.render p).level = n) (hpositive : 0 ≤ n) (halike : e.Alike p e')
    (h : Derives (phraseAt n e') ts) : ReadBack p e ts := by
  subst hlevel
  exact .one hpositive halike h

/-- What is read back of an expression that is no chain stands on the loosest level. -/
theorem clause (h : ReadBack p e ts) (hlevel : (e.render p).level ≠ chainLevel) :
    ∃ e', e.Alike p e' ∧ Derives (.level 0 e') ts := by
  cases h with
  | one hpositive halike h => exact ⟨_, halike, h.loosen hpositive (by decide)⟩
  | several hchain _ _ _ => exact absurd hchain hlevel

/-- What is read back can be a clause or more of a chain. -/
theorem clauses (h : ReadBack p e ts) :
    ∃ es, Expr.Spelled p [e] es ∧ Derives (.clauses es) ts := by
  cases h with
  | one hpositive halike h =>
      exact ⟨_, halike.spelled, .firstClause (h.loosen hpositive (by decide))⟩
  | @several es _ hlength halike h =>
      have hne : es ≠ [] := by
        rintro rfl
        simp at hlength
      exact ⟨es, halike.spelled_clauses hne, h⟩

/-- What is read back can stand between delimiters. -/
theorem chain (h : ReadBack p e ts) : ∃ e', e.Alike p e' ∧ Derives (.chain e') ts := by
  cases h with
  | one hpositive halike h =>
      exact ⟨_, halike, .chain (.firstClause (h.loosen hpositive (by decide)))⟩
  | @several es _ hlength halike h =>
      have htree : chainTree es ts = .chain es (tokensSpan ts) := by
        unfold chainTree
        split
        · simp at hlength
        · rfl
      have hchain := h.chain
      rw [htree] at hchain
      exact ⟨_, halike.chain_span (tokensSpan ts), hchain⟩

end ReadBack

namespace Written

/-- A delimiter may stand behind every written expression. -/
theorem delimited (h : Written p e) : Writes p (Delimits p) (e.render p).text (ReadBack p e) :=
  h.before fun _ => Or.inr

/-- An expression that does not end with a delimiter needs one behind it. -/
theorem of_delimited (h : Writes p (Delimits p) (e.render p).text (ReadBack p e))
    (hclosed : e.isClosed = false) : Written p e := by
  apply h.before
  intro next hnext
  rcases hnext with htrue | hnext
  · simp [hclosed] at htrue
  · exact hnext

/-- An expression between parentheses. -/
theorem grouped (h : Written p e) : Writes p anything (parenthesize (e.render p).text)
    fun ts => ∃ e', e.Alike p e' ∧ Derives (.primary e') ts := by
  rw [parenthesize_eq]
  apply h.delimited.parenthesized.imp
  intro ts hts
  rcases hts with ⟨opening, inner, closing, rfl, hopening, hread, hclosing⟩
  rcases hread.chain with ⟨e', halike, hchain⟩
  exact ⟨e', halike, .group hopening hchain hclosing⟩

/-- An expression where a level is required. -/
theorem atLeast (h : Written p e) (hpositive : 0 ≤ n) (hmember : n ≠ memberLevel)
    (hle : n ≤ primaryLevel) :
    Writes p (Delimits p) ((e.render p).atLeast n)
      fun ts => ∃ e', e.Alike p e' ∧ Derives (phraseAt n e') ts := by
  unfold Rendered.atLeast
  split
  · apply (h.grouped.before fun _ _ => trivial).imp
    intro ts hts
    rcases hts with ⟨e', halike, hprimary⟩
    have hread : Derives (phraseAt primaryLevel e') ts := hprimary.bare
    exact ⟨e', halike, hread.loosen hle hmember⟩
  · rename_i htight
    apply h.delimited.imp
    intro ts hread
    cases hread with
    | one _ halike hread => exact ⟨_, halike, hread.loosen (by omega) hmember⟩
    | several hchain _ _ _ =>
        simp only [hchain, chainLevel] at htight
        omega

/-- An expression where the floor of an operator is required. -/
theorem atFloor (h : Written p e) {k : Nat} (hk : k ≤ operandLevel) :
    Writes p (Delimits p) ((e.render p).atLeast k)
      fun ts => ∃ e', e.Alike p e' ∧ Derives (.level k e') ts := by
  have hbound : (k : Int) ≠ memberLevel ∧ (k : Int) ≤ primaryLevel := by
    simp only [operandLevel, memberLevel, primaryLevel] at *
    omega
  apply (h.atLeast (Int.natCast_nonneg k) hbound.1 hbound.2).imp
  intro ts hts
  rcases hts with ⟨e', halike, hread⟩
  rw [phraseAt_natCast hk] at hread
  exact ⟨e', halike, hread⟩

/-- An expression where no chain may stand. -/
theorem unchained (h : Written p e) :
    Writes p (Delimits p) (e.render p).unchained
      fun ts => ∃ e', e.Alike p e' ∧ Derives (.level 0 e') ts := by
  unfold Rendered.unchained
  split
  · apply (h.grouped.before fun _ _ => trivial).imp
    intro ts hts
    rcases hts with ⟨e', halike, hprimary⟩
    have hread : Derives (phraseAt primaryLevel e') ts := hprimary.bare
    exact ⟨e', halike, hread.loosen (n := 0) (by decide) (by decide)⟩
  · rename_i hlevel
    exact h.delimited.imp fun ts hread => hread.clause hlevel

end Written

/-- A binary operator binds looser than everything that needs no parentheses. -/
theorem level_renderBinary_lt {op : Operator} {l r : Rendered} (hop : op.binding?.isSome = true) :
    (renderBinary op l r).level < primaryLevel := by
  rcases Option.isSome_iff_exists.mp hop with ⟨⟨level, grouping⟩, hbinding⟩
  have hlt := Operator.binding_lt hbinding
  simp only [renderBinary, hbinding, Option.getD_some, primaryLevel, operandLevel] at *
  omega

/-- What needs no parentheses and is neither a literal nor a reference ends with a delimiter. -/
theorem Expr.isClosed_of_primary (hshaped : e.Shaped) (hliteral : e.isLiteral = false)
    (hreference : e.isReference = false) (hlevel : primaryLevel ≤ (e.render p).level) :
    e.isClosed = true := by
  cases e with
  | literal _ _ => simp [isLiteral] at hliteral
  | name _ _ _ _ | member _ _ _ => simp [isReference] at hreference
  | call _ _ _ _ | record _ _ | table _ _ => rfl
  | unary op operand span =>
      simp only [render, renderUnary] at hlevel
      split at hlevel
      · simp [primaryLevel, postfixLevel] at hlevel
      · simp [primaryLevel, prefixLevel] at hlevel
  | binary op l r span =>
      have hlt := level_renderBinary_lt (l := l.render p) (r := r.render p) hshaped
      rw [render] at hlevel
      omega
  | chain clauses span =>
      rw [render_chain hshaped] at hlevel
      simp [primaryLevel, chainLevel] at hlevel
  | hole => exact absurd hshaped id

/-- An expression with members behind it. -/
theorem Written.base (h : Written p e) (hshaped : e.Shaped) (hliteral : e.isLiteral = false)
    (hreference : e.isReference = false) :
    Writes p anything ((e.render p).atLeast primaryLevel)
      fun ts => ∃ e', e.Alike p e' ∧ Derives (.member e') ts := by
  unfold Rendered.atLeast
  split
  · apply h.grouped.imp
    intro ts hts
    rcases hts with ⟨e', halike, hprimary⟩
    exact ⟨e', halike, hprimary.bare⟩
  · rename_i htight
    have hlevel : primaryLevel ≤ (e.render p).level := by omega
    have hclosed := Expr.isClosed_of_primary hshaped hliteral hreference hlevel
    apply (h.before fun _ _ => Or.inl hclosed).imp
    intro ts hread
    cases hread with
    | one _ halike hread => exact ⟨_, halike, hread.loosen (n := primaryLevel) hlevel (by decide)⟩
    | several hchain _ _ _ =>
        simp only [hchain, chainLevel, primaryLevel] at hlevel
        omega

end FormulaLint
