import FormulaLint.Proofs.Parentheses.Rereading
import Mathlib.Algebra.Order.BigOperators.Group.List
import Mathlib.Algebra.Order.Group.Nat

/-!
# Parentheses that are needed

When some pairs of parentheses are left out and what is left can still be read as something that
shows the same, then none was left out but those that nothing needs: around a reference in front of
a percent sign, which binds as tight as one, and around a chain in front of members, which canonical
forms do not show.

Main results:

- Theorem {lit}`Rereads.kept`: every pair that is needed is written.
-/

namespace FormulaLint

/-- Whether a pair of parentheses is one around a reference in front of a percent sign or one around
a chain in front of members. -/
def Pair.MaybeSpare (pair : Pair) : Prop :=
  match pair.outer with
  | .unary op _ _ => op.isPostfix = true ∧ pair.inner.isReference = true
  | .member _ _ _ => pair.inner.isChain = true
  | _ => False

instance : DecidablePred Pair.MaybeSpare
  | ⟨_, .unary op _ _, inner⟩ =>
      inferInstanceAs (Decidable (op.isPostfix = true ∧ inner.isReference = true))
  | ⟨_, .member _ _ _, inner⟩ => inferInstanceAs (Decidable (inner.isChain = true))
  | ⟨_, .literal _ _, _⟩ | ⟨_, .name _ _ _ _, _⟩ | ⟨_, .call _ _ _ _, _⟩ | ⟨_, .record _ _, _⟩
  | ⟨_, .table _ _, _⟩ | ⟨_, .binary _ _ _ _, _⟩ | ⟨_, .chain _ _, _⟩ | ⟨_, .hole, _⟩ =>
      .isFalse id

/-- The level of the place where the part at a position stands, which is that of a chain where it
stands between parentheses. -/
def Expr.placeLevel (p : Profile) (e : Expr) (i : Nat) (c : Expr) : Int :=
  if (c.render p).level < e.floor i then chainLevel else e.floor i

/-- A pair of parentheses that could be left out of what is written for an expression in a place of
the given level: one around a reference in front of a percent sign, or one around a chain in front
of members that stand between delimiters. -/
inductive SparePair (p : Profile) : Int → Path → Expr → Pair → Prop where
  | percent {n : Int} {here : Path} {op : Operator} {operand : Expr} {span : Span}
      (hop : op.isPostfix = true) (hoperand : operand.isReference = true) :
      SparePair p n here (.unary op operand span)
        ⟨here ++ [0], .unary op operand span, operand⟩
  | member {here : Path} {base : Expr} {segments : List Segment} {span : Span}
      (hbase : base.isChain = true) :
      SparePair p chainLevel here (.member base segments span)
        ⟨here ++ [0], .member base segments span, base⟩
  | inside {n : Int} {here : Path} {e c : Expr} {i : Nat} {pair : Pair}
      (hc : e.children[i]? = some c) (h : SparePair p (e.placeLevel p i c) (here ++ [i]) c pair) :
      SparePair p n here e pair

namespace SparePair

variable {p : Profile} {n : Int} {here : Path} {e : Expr} {pair : Pair}

/-- What could be left out somewhere could be left out between delimiters. -/
theorem loosen (h : SparePair p n here e pair) : SparePair p chainLevel here e pair := by
  cases h with
  | percent hop hoperand => exact .percent hop hoperand
  | member hbase => exact .member hbase
  | inside hc h => exact .inside hc h

/-- A pair that could be left out is around a reference in front of a percent sign, or around a
chain in front of members. -/
theorem maybeSpare (h : SparePair p n here e pair) : pair.MaybeSpare := by
  induction h with
  | percent hop hoperand => exact ⟨hop, hoperand⟩
  | member hbase => exact hbase
  | inside _ _ ih => exact ih

end SparePair

/-! ## Clauses of chains -/

/-- Numbers that are no greater than others and have the same sum are the same. -/
theorem eq_of_sum_eq {α : Type} {f g : α → Nat} {as : List α} (hle : ∀ a ∈ as, f a ≤ g a)
    (hsum : (as.map g).sum = (as.map f).sum) : ∀ a ∈ as, g a = f a := by
  induction as with
  | nil => simp
  | cons a as ih =>
      have hrest := List.sum_le_sum fun b hb => hle b (List.mem_cons_of_mem a hb)
      have hfirst := hle a (by simp)
      simp only [List.map_cons, List.sum_cons] at hsum
      exact List.forall_mem_cons.mpr ⟨by omega,
        ih (fun b hb => hle b (by simp [hb])) (by omega)⟩

section

variable {p : Profile} {keep : Path → Bool} {here : Path} {n : Int} {e : Expr} {es : List Expr}
  {span : Span} {ts : List Token} {ks : List Kind}

/-- Clauses that hold no more words than what they show are told by these. -/
theorem Phrase.MadeOf.fitting_clauses (h : (Phrase.clauses es).MadeOf ts)
    (hcount : wordCount (kinds ts) + 1 = totalSize es) :
    ∃ items : List (Expr × List Token), items ≠ [] ∧ items.map Prod.fst = es ∧
      kinds ts = joined (items.map fun i => kinds i.2) ∧
      ∀ i ∈ items, (Phrase.level 0 i.1).MadeOf i.2 ∧ Fits (kinds i.2) i.1.canonical.clauses := by
  rcases h.itemsOf with ⟨items, rfl, hitems, hjoined⟩
  have hne : items ≠ [] := by
    rintro rfl
    exact h.shaped.1 rfl
  refine ⟨items, hne, rfl, hjoined, fun i hi => ⟨hitems i hi, ?_⟩⟩
  have hle : ∀ i ∈ items, i.1.size + 1 ≤ wordCount (kinds i.2) + 1 :=
    fun i hi => Nat.succ_le_succ (hitems i hi).spreads.size_le
  have hparts : items.map (fun i => kinds i.2) ≠ [] := by simpa using hne
  have hsum := wordCount_joined hparts
  have htokens : kinds ts = joined (items.map fun i => kinds i.2) := hjoined
  rw [← htokens, hcount, totalSize, List.map_map, List.map_map] at hsum
  have hexact := eq_of_sum_eq hle hsum.symm i hi
  exact (headed_level (Int.le_refl _) (hitems i hi)).fits (hitems i hi).shaped
    (hitems i hi).spreads.matched (Nat.succ.inj hexact)

/-- A chain that holds no more words than what it shows has clauses that are told by these. -/
theorem Phrase.MadeOf.fitting_chain (h : (Phrase.chain e).MadeOf ts)
    (hcount : wordCount (kinds ts) = e.size) :
    ∃ items : List (Expr × List Token), items ≠ [] ∧
      kinds ts = joined (items.map fun i => kinds i.2) ∧
      (∀ i ∈ items, (Phrase.level 0 i.1).MadeOf i.2 ∧ Fits (kinds i.2) i.1.canonical.clauses) ∧
      items.flatMap (fun i => i.1.canonical.clauses) = e.canonical.clauses := by
  rcases h with ⟨h, hts⟩
  cases h with
  | @chain es _ h =>
      have hmade : (Phrase.clauses es).MadeOf ts := ⟨h, hts⟩
      have hpos := totalSize_pos hmade.shaped.1
      rw [size_chainTree] at hcount
      rcases hmade.fitting_clauses (by omega) with ⟨items, hne, rfl, hkinds, hitems⟩
      exact ⟨items, hne, hkinds, hitems, by rw [clauses_chainTree, List.flatMap_map]⟩
  | @trailedChain es ts t h ht =>
      -- a separator at the end is one word too many
      have hsize : (Phrase.clauses es).size ≤ wordCount (kinds ts) := h.spreads.size_le
      rw [Phrase.size] at hsize
      rw [size_chainTree, kinds_append, kinds_cons, ht.kind, wordCount_append] at hcount
      simp at hcount
      omega

/-- The clauses of a chain are read again from what shows the same clauses. -/
theorem Expr.childrenReread_of_clauses {items : List (Expr × List Token)}
    (hitems : ∀ i ∈ items, (Phrase.level 0 i.1).MadeOf i.2 ∧ Fits (kinds i.2) i.1.canonical.clauses)
    (hkinds : joined (items.map fun i => kinds i.2) = (chain es span).spelled p keep here)
    (hsame : items.flatMap (fun i => i.1.canonical.clauses) =
      es.flatMap fun e => e.canonical.clauses)
    (hshaped : ∀ e ∈ es, e.Every Shaped) : (chain es span).ChildrenReread p keep here := by
  rw [spelled_eq, arranged] at hkinds
  refine rereads_clauses hitems ?_ (fun child hchild => ⟨?_, matched_spelledChild child,
    wordCount_spelledChild child⟩) hkinds
  · have hparts : es.zipIdx.map (fun child => child.1.canonical.clauses) =
        es.map fun e => e.canonical.clauses := map_zipIdx es fun _ _ => rfl
    rw [hsame, List.flatMap_def, List.flatMap_def, children, hparts]
  · exact hshaped child.1 (List.fst_mem_of_mem_zipIdx hchild)

/-- The clauses of a chain that is read again. -/
theorem Rereads.chain_children
    (h : Rereads chainLevel ((Expr.chain es span).spelled p keep here) (.chain es span))
    (hshaped : (Expr.chain es span).Every Expr.Shaped) :
    (Expr.chain es span).ChildrenReread p keep here := by
  rcases h with ⟨e', ts, hmade, hkinds, hsame⟩
  rw [placePhrase_chainLevel] at hmade
  have hcount : wordCount (kinds ts) = e'.size := by
    rw [hkinds, Expr.wordCount_spelled, Expr.size_eq_of_canonical hshaped hmade.shaped hsame]
  rcases hmade.fitting_chain hcount with ⟨items, -, hjoined, hitems, hclauses⟩
  refine Expr.childrenReread_of_clauses hitems (hjoined.symm.trans hkinds) ?_
    (Expr.every_iff.mp hshaped).2
  rw [hclauses, hsame, Expr.canonical_chain, Expr.clauses]

/-- Nothing that is read again where no chain may stand is a chain. -/
theorem Rereads.not_chain (h : Rereads n ((Expr.chain es span).spelled p keep here) (.chain es span))
    (hshaped : (Expr.chain es span).Every Expr.Shaped) (hpositive : 0 ≤ n)
    (hmember : n ≠ memberLevel) : False := by
  rcases h with ⟨e', ts, hmade, hkinds, hsame⟩
  obtain ⟨hlength, hchildren⟩ := Expr.every_iff.mp hshaped
  have hspreads := spreads_of_placePhrase hmade
  have hshaped' := shaped_of_placePhrase hmade
  rw [placePhrase_of_nonneg hpositive] at hmade
  have hcount : wordCount (kinds ts) = e'.size := by
    rw [hkinds, Expr.wordCount_spelled, Expr.size_eq_of_canonical hshaped hshaped' hsame]
  have hfits := (Phrase.MadeOf.headed hpositive hmember hmade).fits hshaped' hspreads.matched hcount
  rw [hkinds, Expr.spelled_eq, Expr.arranged, hsame, Expr.canonical_chain, Expr.clauses] at hfits
  rcases es with _ | ⟨first, _ | ⟨second, others⟩⟩
  · simp [Expr.Shaped] at hlength
  · simp [Expr.Shaped] at hlength
  · -- the first clause would end inside the group that holds all of them
    have hfirst := hchildren first (by simp [Expr.children])
    have hsecond := Expr.clauses_canonical_ne_nil (hchildren second (by simp [Expr.children]))
    rw [Expr.children, List.zipIdx_cons, List.map_cons, joined_cons (by simp),
      List.flatMap_cons] at hfits
    refine hfits.not_prefix (Expr.matched_spelledChild _) (by simp [hsecond])
      (Expr.size_pos_of_mem_clauses hfirst) ?_
    rw [Expr.wordCount_spelledChild,
      Expr.totalSize_clauses (Expr.clauses_canonical_ne_nil hfirst), Expr.size_canonical hfirst]

/-! ## Members of chains -/

/-- A base that shows a chain is one. -/
theorem Expr.isChain_of_canonical {base : Expr} (hreference : base.isReference = false)
    (h : base.canonical.isChain = true) : base.isChain = true := by
  cases base with
  | chain _ _ => rfl
  | member _ _ _ => simp [isReference] at hreference
  | _ => simp [canonical, form, isChain] at h

/-- What is spelled for anything but a chain fits the clauses that it shows. -/
theorem Expr.spelled_fits (hshaped : e.Every Shaped) (hchain : e.isChain = false)
    (hspare : ∀ pair ∈ e.pairs p here, SparePair p chainLevel here e pair →
      keep pair.path = true) :
    Fits (e.spelled p keep here) e.canonical.clauses where
  matched := matched_spelled e
  count := by
    rw [wordCount_spelled, totalSize_clauses (clauses_canonical_ne_nil hshaped),
      size_canonical hshaped]
  led := by
    intro hlength
    cases e with
    | chain _ _ => simp [isChain] at hchain
    | member base segments span =>
        rcases every_iff.mp hshaped with ⟨⟨hne, -, hreference, -⟩, hchildren⟩
        have hbase := hchildren base (by simp [children])
        have hbaseChain : base.canonical.isChain = true := by
          by_contra hnot
          have hmember : (member base segments span).canonical.isChain = false :=
            (isChain_attach _ _).trans (Bool.eq_false_iff.mpr hnot)
          rw [clauses_of_not_chain hmember] at hlength
          simp at hlength
        have hinner := isChain_of_canonical hreference hbaseChain
        have hlevel : (base.render p).level < primaryLevel := by
          cases base with
          | chain clauses span =>
              rw [render_chain (every_iff.mp hbase).1]
              exact (by decide : chainLevel < primaryLevel)
          | _ => simp [isChain] at hinner
        have hkeep : keep (here ++ [0]) = true :=
          hspare ⟨here ++ [0], .member base segments span, base⟩
            (mem_pairs_iff.mpr ⟨base, 0, rfl, .inl ⟨hlevel, rfl⟩⟩) (.member hinner)
        rcases exists_snoc (clauses_canonical_ne_nil hbase) with ⟨init, last, hclauses⟩
        have hlast := size_pos_of_mem_clauses hbase last (by simp [hclauses])
        refine ⟨base.spelled p keep (here ++ [0]),
          List.replicate (2 * segments.length) (.word true), init,
          last.access (segments.map Segment.form), ?_, matched_spelled base, ?_, ?_⟩
        · rw [spelled_eq, arranged]
          simp [children, spelledChild, hkeep, floor, hlevel]
        · have hattach : (base.canonical.attach (segments.map Segment.form)).clauses =
              accessLast _ base.canonical.clauses := clauses_attach hbaseChain
          rw [hclauses, accessLast_snoc] at hattach
          exact hattach
        · rw [wordCount_replicate, size_access, List.length_map]
          omega
    | _ => simp [canonical, form, clauses] at hlength

/-- What is read again between delimiters, and is no chain, is read as one clause. -/
theorem Rereads.clause (h : Rereads chainLevel (e.spelled p keep here) e)
    (hshaped : e.Every Expr.Shaped)
    (hfits : Fits (e.spelled p keep here) e.canonical.clauses) :
    Rereads 0 (e.spelled p keep here) e := by
  rcases h with ⟨e', ts, hmade, hkinds, hsame⟩
  rw [placePhrase_chainLevel] at hmade
  have hcount : wordCount (kinds ts) = e'.size := by
    rw [hkinds, Expr.wordCount_spelled, Expr.size_eq_of_canonical hshaped hmade.shaped hsame]
  rcases hmade.fitting_chain hcount with ⟨items, hne, hjoined, hitems, hclauses⟩
  rcases List.exists_cons_of_ne_nil hne with ⟨first, others, rfl⟩
  rcases hitems first (by simp) with ⟨hfirst, hfirstFits⟩
  rw [hkinds] at hjoined
  rcases joined_eq_append (kinds first.2) (others.map fun i => kinds i.2) with ⟨rest, heq, hrest⟩
  -- the tokens of the first clause would end inside those of the whole
  have hwhole : ∃ front back, [e] = front ++ back ∧ front ≠ [] ∧
      joined (front.map fun _ => e.spelled p keep here) = kinds first.2 ∧
      front.flatMap (fun e => e.canonical.clauses) = first.1.canonical.clauses :=
    exists_split (by simpa using hfits) hfirstFits.matched
      (Expr.size_pos_of_mem_clauses hfirst.shaped) hfirstFits.count
      (by simpa using hjoined.trans heq) hrest (by simpa [← hsame] using hclauses.symm)
  rcases hwhole with ⟨front, back, hsplit, hfront, htokens, hshown⟩
  obtain ⟨rfl, -⟩ : front = [e] ∧ back = [] := by
    rcases List.singleton_eq_append_iff.mp hsplit with ⟨rfl, -⟩ | h
    · exact absurd rfl hfront
    · exact h
  refine ⟨first.1, first.2, ?_, by simpa using htokens.symm, ?_⟩
  · rw [← placePhrase_natCast (k := 0) (by decide)] at hfirst
    exact hfirst
  · exact (Expr.every_iff.mp (Expr.every_canonical hfirst.shaped)).1.eq_of_clauses
      (Expr.every_iff.mp (Expr.every_canonical hshaped)).1 (by simpa using hshown.symm)

/-! ## Pairs that are needed -/

/-- The levels that places for expressions take. -/
structure IsPlace (n : Int) : Prop where
  chain_le : chainLevel ≤ n
  ne_member : n ≠ memberLevel
  le_primary : n ≤ primaryLevel

/-- A chain has its place. -/
theorem isPlace_chainLevel : IsPlace chainLevel :=
  ⟨by decide, by decide, by decide⟩

/-- Every part of an expression has a place. -/
theorem Expr.isPlace_floor (h : e.Shaped) (i : Nat) : IsPlace (e.floor i) := by
  have hoperand : ∀ {k : Nat}, k ≤ operandLevel → IsPlace k := by
    intro k hk
    simp only [operandLevel] at hk
    constructor <;> simp only [chainLevel, memberLevel, primaryLevel] <;> omega
  have hbase : IsPlace primaryLevel := ⟨by decide, by decide, by decide⟩
  cases e with
  | member _ _ _ => exact hbase
  | unary op operand span =>
      rw [floor]
      split
      · exact ⟨by decide, by decide, by decide⟩
      · exact ⟨by decide, by decide, by decide⟩
  | binary op l r span =>
      rcases Option.isSome_iff_exists.mp h with ⟨⟨k, g⟩, hbinding⟩
      simp only [floor, hbinding, Option.getD_some]
      split
      · exact hoperand (Nat.le_trans (leftFloor_le_succ k g) (Operator.binding_lt hbinding))
      · exact hoperand (rightFloor_le_operandLevel hbinding)
  | record _ _ | table _ _ => exact hoperand (Nat.zero_le _)
  | literal _ _ | name _ _ _ _ | call _ _ _ _ | chain _ _ | hole => exact isPlace_chainLevel

/-- A reference needs parentheses in front of a percent sign only. -/
theorem Expr.spare_of_reference {c : Expr} {i : Nat} (h : e.Shaped)
    (hc : e.children[i]? = some c) (hreference : c.isReference = true)
    (hlevel : (c.render p).level < e.floor i) : SparePair p n here e ⟨here ++ [i], e, c⟩ := by
  have hmember : memberLevel ≤ (c.render p).level := by
    have hrendered : ∀ base chain, memberLevel ≤ (renderChain base chain).level := by
      intro base chain
      unfold renderChain
      split
      · exact (by decide : memberLevel ≤ primaryLevel)
      · exact Int.le_refl _
    cases c with
    | name _ _ _ _ | member _ _ _ => exact hrendered _ _
    | _ => simp [isReference] at hreference
  have hloose : ∀ {m : Int}, m ≤ prefixLevel → ¬ (c.render p).level < m := by
    intro m hm
    simp only [prefixLevel, memberLevel] at hm hmember
    omega
  cases e with
  | member base segments span =>
      obtain rfl : c = base := by simpa [children] using List.mem_of_getElem? hc
      rw [h.2.2.1] at hreference
      cases hreference
  | unary op operand span =>
      obtain ⟨rfl, rfl⟩ : i = 0 ∧ operand = c := by
        simpa [children, List.getElem?_singleton] using hc
      rw [floor] at hlevel
      split at hlevel
      · rename_i hpostfix
        exact .percent hpostfix hreference
      · exact absurd hlevel (hloose (Int.le_refl _))
  | binary op l r span =>
      rcases Option.isSome_iff_exists.mp h with ⟨⟨k, g⟩, hbinding⟩
      have hleft := Nat.le_trans (leftFloor_le_succ k g) (Operator.binding_lt hbinding)
      have hright := rightFloor_le_operandLevel hbinding
      simp only [floor, hbinding, Option.getD_some, operandLevel] at hlevel hleft hright
      refine absurd hlevel (hloose ?_)
      split <;> simp only [prefixLevel] <;> omega
  | record _ _ | table _ _ => exact absurd hlevel (hloose (by decide : chainLevel + 1 ≤ prefixLevel))
  | literal _ _ | name _ _ _ _ | call _ _ _ _ | chain _ _ | hole =>
      exact absurd hlevel (hloose (by decide : chainLevel ≤ prefixLevel))

/-- The parts of what is read again, and the level that it needs. -/
theorem Rereads.children_reread (h : Rereads n (e.spelled p keep here) e)
    (hshaped : e.Every Expr.Shaped) (hn : IsPlace n)
    (hspare : ∀ pair ∈ e.pairs p here, SparePair p n here e pair → keep pair.path = true) :
    (n ≤ (e.render p).level ∨ e.isReference = true) ∧ e.ChildrenReread p keep here := by
  have hchainLevel := hn.chain_le
  by_cases hplace : n = chainLevel
  · subst hplace
    refine ⟨.inl (chainLevel_le_level e), ?_⟩
    cases hchain : e.isChain with
    | true =>
        cases e with
        | chain es span => exact h.chain_children hshaped
        | _ => simp [Expr.isChain] at hchain
    | false =>
        rcases h.clause hshaped (Expr.spelled_fits hshaped hchain hspare)
          with ⟨e', ts, hmade, hkinds, hsame⟩
        have hheaded := Phrase.MadeOf.headed (Int.le_refl 0) (by decide) hmade
        exact (hheaded.children_reread hshaped hchain (by decide) hkinds hsame).2
  · have hpositive : 0 ≤ n := by
      simp only [chainLevel] at hplace hchainLevel
      omega
    cases hchain : e.isChain with
    | true =>
        cases e with
        | chain es span => exact (h.not_chain hshaped hpositive hn.ne_member).elim
        | _ => simp [Expr.isChain] at hchain
    | false =>
        rcases h with ⟨e', ts, hmade, hkinds, hsame⟩
        rw [placePhrase_of_nonneg hpositive] at hmade
        exact (Phrase.MadeOf.headed hpositive hn.ne_member hmade).children_reread hshaped hchain
          hn.le_primary hkinds hsame

/-- When what is spelled with some pairs left out is read as something that shows the same, and
nothing but spare pairs is known to be written, then every pair is. -/
theorem Rereads.kept (h : Rereads n (e.spelled p keep here) e) (hshaped : e.Every Expr.Shaped)
    (hn : IsPlace n)
    (hspare : ∀ pair ∈ e.pairs p here, SparePair p n here e pair → keep pair.path = true) :
    ∀ pair ∈ e.pairs p here, keep pair.path = true := by
  induction e using Expr.children_induct generalizing here n with
  | step e ih =>
      obtain ⟨-, hreread⟩ := h.children_reread hshaped hn hspare
      obtain ⟨hshape, hchildren⟩ := Expr.every_iff.mp hshaped
      intro pair hpair
      rcases Expr.mem_pairs_iff.mp hpair with ⟨c, i, hc, hcases⟩
      have hmem := List.mem_of_getElem? hc
      have hchild := hreread (c, i) (List.mem_zipIdx_iff_getElem?.mpr hc)
      have hplace := Expr.isPlace_floor hshape i
      have hinnerSpare : ∀ pair ∈ c.pairs p (here ++ [i]),
          SparePair p (e.placeLevel p i c) (here ++ [i]) c pair → keep pair.path = true :=
        fun pair hpair hinner =>
          hspare pair (Expr.mem_pairs_iff.mpr ⟨c, i, hc, .inr hpair⟩) (.inside hc hinner)
      by_cases hlevel : (c.render p).level < e.floor i
      · rw [Expr.placeLevel, if_pos hlevel] at hinnerSpare
        by_cases hkeep : keep (here ++ [i]) = true
        · rcases hcases with ⟨-, rfl⟩ | hinner
          · exact hkeep
          · rw [Expr.spelledChild, if_pos ⟨hlevel, hkeep⟩] at hchild
            have hpositive : 0 ≤ e.floor i := by
              have hlow := chainLevel_le_level (p := p) c
              simp only [chainLevel] at hlow
              omega
            have hgroup := hchild.of_group hpositive hplace.ne_member (Expr.matched_spelled c)
            exact ih c hmem hgroup (hchildren c hmem) isPlace_chainLevel hinnerSpare pair hinner
        · -- what stands bare is tight enough, or a reference in front of a percent sign
          rw [Expr.spelledChild, if_neg fun hboth => hkeep hboth.2] at hchild
          refine absurd ?_ hkeep
          rcases (hchild.children_reread (hchildren c hmem) hplace fun pair hpair hinner =>
            hinnerSpare pair hpair hinner.loosen).1 with htight | hreference
          · exact absurd hlevel (Int.not_lt.mpr htight)
          · exact hspare _ (Expr.mem_pairs_iff.mpr ⟨c, i, hc, .inl ⟨hlevel, rfl⟩⟩)
              (Expr.spare_of_reference hshape hc hreference hlevel)
      · rw [Expr.spelledChild, if_neg fun hboth => hlevel hboth.1] at hchild
        rw [Expr.placeLevel, if_neg hlevel] at hinnerSpare
        rcases hcases with ⟨hloose, -⟩ | hinner
        · exact absurd hloose hlevel
        · exact ih c hmem hchild (hchildren c hmem) hplace hinnerSpare pair hinner

end

end FormulaLint
