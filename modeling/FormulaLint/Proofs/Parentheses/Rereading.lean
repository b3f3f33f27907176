import FormulaLint.Proofs.Parentheses.Clauses
import FormulaLint.Proofs.Parentheses.Spelling
import Mathlib.Data.List.Induction

/-!
# Reading what is spelled for the parts of an expression

What is spelled for an expression may be read again, with any pairs of parentheses left out, as
something that shows the same.  The words that are spelled for the parts are then read as parts that
show the same, each in the place that its parent has for it.

Main results:

- Theorem {lit}`Rereads.of_group`: what is read of a group is read of what is in it.
- Theorem {lit}`Headed.children_reread`: the parts of an expression that is read again.
-/

namespace FormulaLint

/-- The phrase of an expression in a place that takes the given level and everything tighter. -/
def placePhrase (n : Int) (e : Expr) : Phrase :=
  if n = chainLevel then .chain e else phraseAt n e

/-- Tokens of the given kinds make up, in a place that takes the given level, an expression that
shows the same as the given one. -/
def Rereads (n : Int) (ks : List Kind) (e : Expr) : Prop :=
  ∃ e' ts, (placePhrase n e').MadeOf ts ∧ kinds ts = ks ∧ e'.canonical = e.canonical

section

variable {n : Int} {k : Nat} {e e' : Expr} {ts : List Token} {ks : List Kind}

/-- The place between delimiters. -/
theorem placePhrase_chainLevel : placePhrase chainLevel e = .chain e :=
  if_pos rfl

/-- A place that takes no chain. -/
theorem placePhrase_of_nonneg (h : 0 ≤ n) : placePhrase n e = phraseAt n e :=
  if_neg (by simp only [chainLevel]; omega)

/-- A place for an operand. -/
theorem placePhrase_natCast (hk : k ≤ operandLevel) : placePhrase k e = .level k e := by
  rw [placePhrase_of_nonneg (Int.natCast_nonneg k), phraseAt_natCast hk]

/-- What is read in a place has the shape of the grammar. -/
theorem shaped_of_placePhrase (h : (placePhrase n e).MadeOf ts) : e.Every Expr.Shaped := by
  unfold placePhrase phraseAt at h
  repeat' split at h
  all_goals exact h.shaped

/-- The tokens of what is read in a place are matched and hold its words. -/
theorem spreads_of_placePhrase (h : (placePhrase n e).MadeOf ts) : Spreads e.size ts := by
  unfold placePhrase phraseAt at h
  repeat' split at h
  all_goals exact h.spreads

/-- Expressions that show the same have as many words. -/
theorem Expr.size_eq_of_canonical (h : e.Every Shaped) (h' : e'.Every Shaped)
    (hsame : e'.canonical = e.canonical) : e'.size = e.size := by
  rw [← size_canonical h, ← size_canonical h', hsame]

/-- The tokens of what shows the same hold its words. -/
theorem size_le_of_rereads (h : (placePhrase n e').MadeOf ts) (hshaped : e.Every Expr.Shaped)
    (hsame : e'.canonical = e.canonical) : e.size ≤ wordCount (kinds ts) := by
  rw [← Expr.size_eq_of_canonical hshaped (shaped_of_placePhrase h) hsame]
  exact (spreads_of_placePhrase h).size_le

/-! ## Groups -/

/-- Tokens behind a part are no end of a group that the part starts. -/
theorem kinds_append_ne_group {front back : List Token} (hspreads : Spreads e.size front)
    (hshaped : e.Every Expr.Shaped) (hks : Matched ks) (hback : back ≠ []) :
    kinds (front ++ back) ≠ .opening :: (ks ++ [.closing]) := by
  intro heq
  have hpos := (Expr.every_iff.mp hshaped).1.size_pos
  have hsize := hspreads.size_le
  have hne : kinds front ≠ [] := by
    intro hnil
    rw [hnil, wordCount_nil] at hsize
    omega
  rw [kinds_append] at heq
  rcases hspreads.matched.group hne hks heq with ⟨more, -, hmore⟩
  have hnil := (List.nil_eq_append_iff.mp hmore).2
  exact hback (List.map_eq_nil_iff.mp hnil)

/-- What stands between parentheses is a chain. -/
theorem Headed.of_group (h : Headed n e ts) (hks : Matched ks)
    (hkinds : kinds ts = .opening :: (ks ++ [.closing])) :
    ∃ inner, (Phrase.chain e).MadeOf inner ∧ kinds inner = ks := by
  have hword : ∀ {t : Token} {rest : List Token}, t.IsWord →
      kinds (t :: rest) ≠ .opening :: (ks ++ [.closing]) := by
    rintro t rest ⟨readable, ht⟩ heq
    rw [kinds_cons, ht] at heq
    simp at heq
  cases h with
  | group hopening hinner hclosing =>
      refine ⟨_, hinner, ?_⟩
      rw [kinds_cons, kinds_append, kinds_cons, kinds_nil, hopening.kind, hclosing.kind] at hkinds
      exact List.append_cancel_right (List.cons.inj hkinds).2
  | literal _ _ | name _ _ _ => simp [kinds] at hkinds
  | call _ _ ht _ _ _ | record _ ht _ _ | table _ ht _ _ | unary _ _ _ ht _ =>
      exact absurd hkinds (hword ht)
  | qualifiedCall _ _ hbase _ _ _ _ _ =>
      exact absurd hkinds (kinds_append_ne_group hbase.spreads hbase.shaped hks (by simp))
  | access _ _ hbase _ _ =>
      exact absurd hkinds (kinds_append_ne_group hbase.spreads hbase.shaped hks (by simp))
  | percent _ _ hbase _ =>
      exact absurd hkinds (kinds_append_ne_group hbase.spreads hbase.shaped hks (by simp))
  | binary _ _ _ hl _ _ =>
      exact absurd hkinds (kinds_append_ne_group hl.spreads hl.shaped hks (by simp))

/-- What is read of a group is read of what is in it. -/
theorem Rereads.of_group (hpositive : 0 ≤ n) (hmember : n ≠ memberLevel) (hks : Matched ks)
    (h : Rereads n (.opening :: (ks ++ [.closing])) e) : Rereads chainLevel ks e := by
  rcases h with ⟨e', ts, hmade, hkinds, hsame⟩
  rw [placePhrase_of_nonneg hpositive] at hmade
  rcases (Phrase.MadeOf.headed hpositive hmember hmade).of_group hks hkinds with ⟨inner, hinner, hks'⟩
  refine ⟨e', inner, ?_, hks', hsame⟩
  rwa [placePhrase_chainLevel]

end

/-! ## Parts of lists -/

/-- Items that show the same as some expressions and are joined to the same tokens are spelled by
the same tokens, one by one. -/
theorem rereads_items {n : Int} {lead : List Kind} {items : List (Expr × List Token)}
    {cs : List (Expr × Nat)} {part : Expr × Nat → List Kind}
    (hitems : ∀ i ∈ items, (placePhrase n i.1).MadeOf i.2)
    (hsame : items.map (fun i => i.1.canonical) = cs.map fun child => child.1.canonical)
    (hparts : ∀ child ∈ cs, child.1.Every Expr.Shaped ∧ wordCount (part child) = child.1.size)
    (hkinds : joined (items.map fun i => lead ++ kinds i.2) =
      joined (cs.map fun child => lead ++ part child)) :
    ∀ child ∈ cs, Rereads n (part child) child.1 := by
  have hle : List.Forall₂ (fun ks ks' => wordCount ks ≤ wordCount ks')
      (cs.map fun child => lead ++ part child) (items.map fun i => lead ++ kinds i.2) := by
    clear hkinds
    induction items generalizing cs with
    | nil =>
        obtain rfl := List.map_eq_nil_iff.mp hsame.symm
        exact .nil
    | cons i items ih =>
        rcases List.map_eq_cons_iff.mp hsame.symm with ⟨child, cs, rfl, hchild, hrest⟩
        have hfirst := hparts child (by simp)
        have hsize := size_le_of_rereads (hitems i (by simp)) hfirst.1 hchild.symm
        refine .cons ?_ (ih (fun j hj => hitems j (by simp [hj])) hrest.symm
          fun c hc => hparts c (by simp [hc]))
        simp only [wordCount_append]
        omega
  have hsplit := joined_inj hle hkinds.symm
  clear hparts hkinds hle
  induction items generalizing cs with
  | nil =>
      obtain rfl := List.map_eq_nil_iff.mp hsame.symm
      simp
  | cons i items ih =>
      rcases List.map_eq_cons_iff.mp hsame.symm with ⟨child, cs, rfl, hchild, hrest⟩
      obtain ⟨hfirst, hothers⟩ := List.cons.inj hsplit
      refine List.forall_mem_cons.mpr ⟨⟨i.1, i.2, hitems i (by simp),
        (List.append_cancel_left hfirst).symm, hchild.symm⟩, ?_⟩
      exact ih (fun j hj => hitems j (by simp [hj])) hrest.symm hothers

/-- What a chain of clauses shows. -/
theorem clauses_chainTree (es : List Expr) (ts : List Token) :
    (chainTree es ts).canonical.clauses = es.flatMap fun e => e.canonical.clauses := by
  unfold chainTree
  split
  · simp
  · rw [Expr.canonical_chain, Expr.clauses]

/-- Clauses make up a chain that shows all that they show. -/
theorem rereads_chain {items : List (Expr × List Token)} {e : Expr} (hne : items ≠ [])
    (hitems : ∀ i ∈ items, (Phrase.level 0 i.1).MadeOf i.2) (hshaped : e.Every Expr.Shaped)
    (hsame : items.flatMap (fun i => i.1.canonical.clauses) = e.canonical.clauses) :
    Rereads chainLevel (joined (items.map fun i => kinds i.2)) e := by
  rcases exists_clauses hitems hne with ⟨ts, hts, hkinds⟩
  have hmade : (Phrase.chain (chainTree (items.map Prod.fst) ts)).MadeOf ts :=
    ⟨.chain hts.derives, hts.numerals⟩
  have hshaped' : Expr.Every Expr.Shaped _ := hmade.shaped
  refine ⟨_, ts, by rwa [placePhrase_chainLevel], hkinds, ?_⟩
  refine (Expr.every_iff.mp (Expr.every_canonical hshaped')).1.eq_of_clauses
    (Expr.every_iff.mp (Expr.every_canonical hshaped)).1 ?_
  rw [clauses_chainTree, List.flatMap_map, ← hsame]

/-- Clauses that show those of some expressions and are joined to the same tokens are spelled by
the tokens of these. -/
theorem rereads_clauses {items : List (Expr × List Token)} {cs : List (Expr × Nat)}
    {part : Expr × Nat → List Kind}
    (hitems : ∀ i ∈ items, (Phrase.level 0 i.1).MadeOf i.2 ∧ Fits (kinds i.2) i.1.canonical.clauses)
    (hsame : items.flatMap (fun i => i.1.canonical.clauses) =
      cs.flatMap fun child => child.1.canonical.clauses)
    (hparts : ∀ child ∈ cs, child.1.Every Expr.Shaped ∧ Matched (part child) ∧
      wordCount (part child) = child.1.size)
    (hkinds : joined (items.map fun i => kinds i.2) = joined (cs.map part)) :
    ∀ child ∈ cs, Rereads chainLevel (part child) child.1 := by
  induction cs generalizing items with
  | nil => simp
  | cons child cs ih =>
      rcases hparts child (by simp) with ⟨hshaped, hmatched, hcount⟩
      have htotal : wordCount (part child) + 1 = totalSize child.1.canonical.clauses := by
        rw [hcount, Expr.totalSize_clauses (Expr.clauses_canonical_ne_nil hshaped),
          Expr.size_canonical hshaped]
      rcases joined_eq_append (part child) (cs.map part) with ⟨rest, hjoined, hrest⟩
      rw [List.map_cons] at hkinds
      rw [List.flatMap_cons] at hsame
      rcases exists_split (fun i hi => (hitems i hi).2) hmatched
        (Expr.size_pos_of_mem_clauses hshaped) htotal (hkinds.trans hjoined) hrest hsame
        with ⟨front, back, rfl, hfront, hfrontKinds, hfrontClauses⟩
      have hfirst := rereads_chain hfront (fun i hi => (hitems i (by simp [hi])).1) hshaped
        hfrontClauses
      rw [hfrontKinds] at hfirst
      rw [List.flatMap_append, hfrontClauses, List.append_cancel_left_eq] at hsame
      refine List.forall_mem_cons.mpr ⟨hfirst, ih (fun i hi => hitems i (by simp [hi])) hsame
        (fun c hc => hparts c (by simp [hc])) ?_⟩
      by_cases hback : back = []
      · have hcs : cs = [] := by
          by_contra hcs
          rcases List.exists_cons_of_ne_nil hcs with ⟨c, cs, rfl⟩
          have hc := Expr.clauses_canonical_ne_nil (hparts c (by simp)).1
          simp [hback, hc] at hsame
        simp [hback, hcs]
      · have hcs : cs ≠ [] := by
          rintro rfl
          rcases List.exists_cons_of_ne_nil hback with ⟨i, back, rfl⟩
          have hi := (hitems i (by simp)).2.count
          simp only [List.flatMap_cons, List.flatMap_nil, List.append_eq_nil_iff] at hsame
          simp [hsame.1] at hi
        rw [List.map_append, joined_append (by simpa using hfront) (by simpa using hback),
          joined_cons (by simpa using hcs), hfrontKinds, List.append_cancel_left_eq] at hkinds
        exact (List.cons.inj hkinds).2

/-! ## Parts of expressions -/

/-- The words that are spelled for the children of an expression are read as what shows the same,
each in its own place. -/
def Expr.ChildrenReread (p : Profile) (keep : Path → Bool) (here : Path) (e : Expr) : Prop :=
  ∀ child ∈ e.children.zipIdx,
    Rereads (e.floor child.2) (e.spelledChild p keep here child) child.1

section

variable {p : Profile} {keep : Path → Bool} {here : Path} {n : Int} {e e' : Expr} {span : Span}
  {ts : List Token} {ks : List Kind}

/-- Joined parts of which the first has words are no group. -/
theorem joined_ne_group {parts : List (List Kind)} {first : List Kind} (hfirst : Matched first)
    (hcount : 0 < wordCount first) (hparts : parts ≠ []) (hks : Matched ks) :
    joined (first :: parts) ≠ .opening :: (ks ++ [.closing]) := by
  intro heq
  have hne : first ≠ [] := by
    rintro rfl
    simp at hcount
  rw [joined_cons hparts] at heq
  rcases hfirst.group hne hks heq with ⟨more, -, hmore⟩
  simp at hmore

/-- What ends with a word is no group. -/
theorem append_word_ne_group {front : List Kind} {readable : Bool} :
    front ++ [.word readable] ≠ .opening :: (ks ++ [.closing]) := by
  intro heq
  rw [← List.cons_append] at heq
  simpa using List.append_inj_right' heq rfl

/-- What is spelled for an expression is no group. -/
theorem Expr.spelled_ne_group (h : e.Every Shaped) (hks : Matched ks) :
    e.spelled p keep here ≠ .opening :: (ks ++ [.closing]) := by
  obtain ⟨hshape, hchildren⟩ := every_iff.mp h
  -- the first operand or clause has words
  have hwords : ∀ child : Expr × Nat, child.1 ∈ e.children →
      0 < wordCount (e.spelledChild p keep here child) := by
    intro child hchild
    rw [wordCount_spelledChild]
    exact (every_iff.mp (hchildren child.1 hchild)).1.size_pos
  rw [spelled_eq]
  cases e with
  | literal value span => simp [arranged]
  | name _ _ segments span => simp [arranged, Nat.add_comm 1, List.replicate_succ]
  | member base segments span =>
      have hlength := List.length_pos_iff.mpr hshape.1
      rcases Nat.exists_eq_succ_of_ne_zero (n := 2 * segments.length) (by omega) with ⟨k, hk⟩
      rw [arranged, hk, List.replicate_succ', ← List.append_assoc]
      exact append_word_ne_group
  | call function arguments qualifiers span =>
      simp [arranged, Nat.add_comm 1, List.replicate_succ]
  | record _ _ | table _ _ => simp [arranged]
  | unary op operand span =>
      rw [arranged]
      split
      · exact append_word_ne_group
      · simp
  | binary op left right span =>
      exact joined_ne_group (matched_spelledChild (left, 0)) (hwords (left, 0) (by simp [children]))
        (by simp) hks
  | chain clauses span =>
      have hlength : 2 ≤ clauses.length := hshape
      rcases clauses with _ | ⟨first, _ | ⟨second, others⟩⟩
      · simp at hlength
      · simp at hlength
      · exact joined_ne_group (matched_spelledChild (first, 0))
          (hwords (first, 0) (by simp [children])) (by simp) hks
  | hole => simp [arranged]

/-- Items of a list that show the same as the children of an expression. -/
theorem Expr.childrenReread_of_items {lead : List Kind} {items : List (Expr × List Token)}
    (h : e.Every Shaped) (hfloor : ∀ i, e.floor i = n)
    (hitems : ∀ i ∈ items, (placePhrase n i.1).MadeOf i.2)
    (hsame : items.map (fun i => i.1.canonical) = e.children.map canonical)
    (hkinds : joined (items.map fun i => lead ++ kinds i.2) = joined
      ((e.children.zipIdx.map (e.spelledChild p keep here)).map fun ks => lead ++ ks)) :
    e.ChildrenReread p keep here := by
  intro child hchild
  rw [hfloor]
  rw [List.map_map] at hkinds
  rw [← map_zipIdx e.children (f := fun child => child.1.canonical) fun _ _ => rfl] at hsame
  refine rereads_items hitems hsame (fun c hc => ⟨?_, wordCount_spelledChild c⟩) hkinds child hchild
  exact (every_iff.mp h).2 c.1 (List.fst_mem_of_mem_zipIdx hc)

/-- No operator stands both in front of its operand and behind it. -/
theorem Operator.isPostfix_of_isPrefix {op : Operator} (h : op.isPrefix = true) :
    op.isPostfix = false := by
  cases op <;> simp_all [Operator.isPrefix, Operator.isPostfix]

namespace Headed

/-- What is read again is no group. -/
theorem not_grouped {opening closing : Token} {inner : List Token} {x : Expr}
    (hopening : opening.Opens .parenthesis) (hinner : (Phrase.chain e').MadeOf inner)
    (hclosing : closing.Closes .parenthesis) (hshaped : x.Every Expr.Shaped) :
    kinds (opening :: (inner ++ [closing])) ≠ x.spelled p keep here := by
  intro heq
  refine Expr.spelled_ne_group hshaped hinner.spreads.matched (heq.symm.trans ?_)
  rw [kinds_cons, kinds_append, kinds_cons, kinds_nil, hopening.kind, hclosing.kind]

/-- The arguments of a call that is read again. -/
theorem call_children {function : String} {es : List Expr} {qualifiers : List String}
    (h : Headed n e' ts) (hshaped : (Expr.call function es qualifiers span).Every Expr.Shaped)
    (hkinds : kinds ts = (Expr.call function es qualifiers span).spelled p keep here)
    (hsame : e'.canonical = (Expr.call function es qualifiers span).canonical) :
    (Expr.call function es qualifiers span).ChildrenReread p keep here := by
  have hwhole := hkinds
  have hmatched : Matched (joined ((Expr.children (.call function es qualifiers span)).zipIdx.map
      (Expr.spelledChild p keep here (.call function es qualifiers span)))) :=
    .joined (List.forall_mem_map.mpr fun child _ => Expr.matched_spelledChild child)
  rw [Expr.spelled_eq, Expr.arranged] at hkinds
  rw [Expr.canonical, Expr.canonical, Expr.form, formAll_eq_map] at hsame
  -- what is between the parentheses of the call, whatever its name is made of
  have harguments : ∀ {es' : List Expr} {inner : List Token} {front : List Kind},
      (Phrase.arguments es').MadeOf inner → Matched front →
      es'.map Expr.canonical = es.map Expr.canonical →
      kinds ts = front ++ .opening :: (kinds inner ++ [.closing]) →
        (Expr.call function es qualifiers span).ChildrenReread p keep here := by
    intro es' inner front hmade hfront hes hts
    have hinner := hfront.last_group (.replicate _ _) hmade.spreads.matched hmatched
      (hts.symm.trans hkinds)
    rcases hmade.itemsOf with ⟨items, rfl, hitems, hjoined⟩
    rw [List.map_map] at hes
    rw [hjoined] at hinner
    refine Expr.childrenReread_of_items (n := chainLevel) hshaped (fun _ => rfl) (fun i hi => ?_) hes
      (hinner.trans (by simp only [List.nil_append, List.map_id']))
    rw [placePhrase_chainLevel]
    exact hitems i hi
  cases h with
  | group hopening hinner hclosing =>
      exact absurd hwhole (not_grouped hopening hinner hclosing hshaped)
  | call name _ ht hopening hmade hclosing =>
      rcases ht with ⟨readable, ht⟩
      rw [Expr.form, formAll_eq_map] at hsame
      refine harguments hmade (.word readable) (Expr.call.inj hsame).2.1 ?_
      simp [hopening.kind, hclosing.kind, ht]
  | qualifiedCall name _ hbase hpoint ht hopening hmade hclosing =>
      rcases hpoint with ⟨readable, hpoint⟩
      rcases ht with ⟨readable', ht⟩
      rw [Expr.form, formAll_eq_map] at hsame
      refine harguments hmade (hbase.spreads.matched.append ((Matched.word readable').cons readable))
        (Expr.call.inj hsame).2.1 ?_
      simp [hopening.kind, hclosing.kind, hpoint, ht]
  | access _ _ _ _ _ => exact absurd hsame (Expr.canonical_accessMember_ne rfl rfl)
  | _ => simp [Expr.form] at hsame

/-- The elements of a table that is read again. -/
theorem table_children {es : List Expr} (h : Headed n e' ts)
    (hshaped : (Expr.table es span).Every Expr.Shaped)
    (hkinds : kinds ts = (Expr.table es span).spelled p keep here)
    (hsame : e'.canonical = (Expr.table es span).canonical) :
    (Expr.table es span).ChildrenReread p keep here := by
  cases h with
  | group hopening hinner hclosing =>
      exact absurd hkinds (not_grouped hopening hinner hclosing hshaped)
  | table _ hopening hmade hclosing =>
      rcases hmade.itemsOf with ⟨items, rfl, hitems, hjoined⟩
      rw [Expr.canonical, Expr.canonical, Expr.form, Expr.form, formAll_eq_map, formAll_eq_map,
        List.map_map] at hsame
      rw [Expr.spelled_eq, Expr.arranged, kinds_cons, kinds_append] at hkinds
      have hinner := List.append_inj_left' (List.cons.inj hkinds).2 rfl
      rw [hjoined] at hinner
      refine Expr.childrenReread_of_items (n := (0 : Nat)) hshaped (fun _ => rfl) (fun i hi => ?_)
        (Expr.table.inj hsame).1 (hinner.trans (by simp only [List.nil_append, List.map_id']))
      rw [placePhrase_natCast (by decide)]
      exact hitems i hi
  | access _ _ _ _ _ => exact absurd hsame (Expr.canonical_accessMember_ne rfl rfl)
  | _ => simp [Expr.canonical, Expr.form] at hsame

/-- The values of the fields of a record that is read again. -/
theorem record_children {fields : List Field} (h : Headed n e' ts)
    (hshaped : (Expr.record fields span).Every Expr.Shaped)
    (hkinds : kinds ts = (Expr.record fields span).spelled p keep here)
    (hsame : e'.canonical = (Expr.record fields span).canonical) :
    (Expr.record fields span).ChildrenReread p keep here := by
  cases h with
  | group hopening hinner hclosing =>
      exact absurd hkinds (not_grouped hopening hinner hclosing hshaped)
  | record _ hopening hmade hclosing =>
      rcases hmade.itemsOf with ⟨items, hvalues, hitems, hjoined⟩
      rw [Expr.canonical, Expr.canonical, Expr.form, Expr.form, formFields_eq_map,
        formFields_eq_map] at hsame
      have hsame' := congrArg (List.map Field.value) (Expr.record.inj hsame).1
      rw [Expr.spelled_eq, Expr.arranged, kinds_cons, kinds_append] at hkinds
      have hinner := List.append_inj_left' (List.cons.inj hkinds).2 rfl
      rw [hjoined] at hinner
      refine Expr.childrenReread_of_items (n := (0 : Nat)) hshaped (fun _ => rfl) (fun i hi => ?_) ?_
        hinner
      · rw [placePhrase_natCast (by decide)]
        exact hitems i hi
      · rw [Expr.children, List.map_map]
        rw [List.map_map, List.map_map] at hsame'
        have hcanonical := congrArg (List.map Expr.canonical) hvalues
        rw [List.map_map, List.map_map] at hcanonical
        exact hcanonical.trans hsame'
  | access _ _ _ _ _ => exact absurd hsame (Expr.canonical_accessMember_ne rfl rfl)
  | _ => simp [Expr.canonical, Expr.form] at hsame

/-- The operand of an operator that is read again. -/
theorem unary_children {op : Operator} {operand : Expr} (h : Headed n e' ts)
    (hshaped : (Expr.unary op operand span).Every Expr.Shaped)
    (hkinds : kinds ts = (Expr.unary op operand span).spelled p keep here)
    (hsame : e'.canonical = (Expr.unary op operand span).canonical) :
    n ≤ ((Expr.unary op operand span).render p).level ∧
      (Expr.unary op operand span).ChildrenReread p keep here := by
  have hchildren : ∀ {x : Expr} {inner : List Token} {m : Int},
      (Expr.unary op operand span).floor 0 = m → (placePhrase m x).MadeOf inner →
      x.canonical = operand.canonical →
      kinds inner = (Expr.unary op operand span).spelledChild p keep here (operand, 0) →
        (Expr.unary op operand span).ChildrenReread p keep here := by
    intro x inner m hfloor hmade hx hinner child hchild
    obtain rfl : child = (operand, 0) := by simpa [Expr.children] using hchild
    rw [hfloor]
    exact ⟨x, inner, hmade, hinner, hx⟩
  cases h with
  | group hopening hinner hclosing =>
      exact absurd hkinds (not_grouped hopening hinner hclosing hshaped)
  | percent _ hn hmade ht =>
      rw [Expr.canonical, Expr.canonical, Expr.form, Expr.form] at hsame
      obtain ⟨rfl, hx, -⟩ := Expr.unary.inj hsame
      rw [Expr.spelled_eq, Expr.arranged, if_pos (by decide), kinds_append] at hkinds
      have hinner := List.append_inj_left' hkinds rfl
      exact ⟨hn, hchildren rfl hmade hx (hinner.trans (by simp [Expr.children]))⟩
  | unary _ hn hop ht hmade =>
      rw [Expr.canonical, Expr.canonical, Expr.form, Expr.form] at hsame
      obtain ⟨rfl, hx, -⟩ := Expr.unary.inj hsame
      have hpercent := Operator.isPostfix_of_isPrefix hop
      rw [Expr.spelled_eq, Expr.arranged, if_neg (by simp [hpercent]), kinds_cons] at hkinds
      have hinner := (List.cons.inj hkinds).2
      rw [Expr.render, level_renderUnary hop]
      refine ⟨hn, hchildren (m := prefixLevel) (by simp [Expr.floor, hpercent]) ?_ hx
        (hinner.trans (by simp [Expr.children]))⟩
      exact hmade
  | access _ _ _ _ _ => exact absurd hsame (Expr.canonical_accessMember_ne rfl rfl)
  | _ => simp [Expr.canonical, Expr.form] at hsame

/-- The operands of an operator that is read again. -/
theorem binary_children {op : Operator} {l r : Expr} (h : Headed n e' ts)
    (hshaped : (Expr.binary op l r span).Every Expr.Shaped)
    (hkinds : kinds ts = (Expr.binary op l r span).spelled p keep here)
    (hsame : e'.canonical = (Expr.binary op l r span).canonical) :
    n ≤ ((Expr.binary op l r span).render p).level ∧
      (Expr.binary op l r span).ChildrenReread p keep here := by
  cases h with
  | group hopening hinner hclosing =>
      exact absurd hkinds (not_grouped hopening hinner hclosing hshaped)
  | @binary op' k g l' r' front back t _ hn hop hl ht hr =>
      rw [Expr.canonical, Expr.canonical, Expr.form, Expr.form] at hsame
      obtain ⟨rfl, hl', hr', -⟩ := Expr.binary.inj hsame
      rcases ht with ⟨readable, ht⟩
      have hlt := Operator.binding_lt hop
      have hfloor := Nat.le_trans (leftFloor_le_succ k g) hlt
      rw [← placePhrase_natCast hfloor] at hl
      rw [← placePhrase_natCast (rightFloor_le_operandLevel hop)] at hr
      have hparts : kinds front ++ .word readable :: kinds back =
          (Expr.binary op' l r span).spelledChild p keep here (l, 0) ++
            .word true :: (Expr.binary op' l r span).spelledChild p keep here (r, 1) := by
        rw [Expr.spelled_eq, Expr.arranged, kinds_append, kinds_cons, ht] at hkinds
        rw [hkinds]
        simp [Expr.children, joined_cons]
      have hchildren := (Expr.every_iff.mp hshaped).2
      have hleft := size_le_of_rereads hl (hchildren l (by simp [Expr.children])) hl'
      have hright := size_le_of_rereads hr (hchildren r (by simp [Expr.children])) hr'
      have hcount := congrArg wordCount hparts
      simp only [wordCount_append, wordCount_word, Expr.wordCount_spelledChild] at hcount
      have hsame : wordCount (kinds front) = l.size := by omega
      rw [← Expr.wordCount_spelledChild (l, 0)] at hsame
      rcases append_word_inj hsame hparts with ⟨hfront, hback⟩
      refine ⟨?_, fun child hchild => ?_⟩
      · rw [Expr.render, renderBinary_eq hop]
        exact hn
      · have hcases : child = (l, 0) ∨ child = (r, 1) := by simpa [Expr.children] using hchild
        rcases hcases with rfl | rfl
        · exact ⟨l', front, by simpa [Expr.floor, hop] using hl, hfront, hl'⟩
        · exact ⟨r', back, by simpa [Expr.floor, hop] using hr, hback, hr'⟩
  | access _ _ _ _ _ => exact absurd hsame (Expr.canonical_accessMember_ne rfl rfl)
  | _ => simp [Expr.canonical, Expr.form] at hsame

/-- What stands in front of members that are read again. -/
theorem exists_base {c : Expr} {members : List Segment} (h : Headed n e' ts)
    (hc : c.Every Expr.Showable) (hne : members ≠ []) (hmembers : MembersAccessed members)
    (hforms : members.map Segment.form = members)
    (hkinds : kinds ts = ks ++ List.replicate (2 * members.length) (.word true))
    (hsame : e'.canonical = c.attach members) :
    ∃ base inner, (Phrase.member base).MadeOf inner ∧ kinds inner = ks ∧ base.canonical = c := by
  induction members using List.reverseRecOn generalizing n e' ts with
  | nil => exact absurd rfl hne
  | append_singleton members last ih =>
      have hwords : List.replicate (2 * (members ++ [last]).length) (Kind.word true) =
          List.replicate (2 * members.length) (.word true) ++ [.word true, .word true] := by
        rw [List.length_append, Nat.mul_add, List.replicate_add]
        rfl
      rw [hwords, ← List.append_assoc] at hkinds
      cases h with
      | group hopening hinner hclosing =>
          rw [kinds_cons, kinds_append, kinds_cons, kinds_nil, hopening.kind, hclosing.kind,
            List.append_cons _ _ [Kind.word true]] at hkinds
          exact absurd hkinds.symm append_word_ne_group
      | @access e front separator t segment nameSpan hmade hseparator ht =>
          rw [kinds_append] at hkinds
          have hfront := List.append_inj_left' hkinds rfl
          have hshown := Expr.every_canonical hmade.shaped
          rw [Expr.canonical_accessMember] at hsame
          by_cases hnil : members = []
          · subst hnil
            exact ⟨e, front, hmade, by simpa using hfront, Expr.attach_singleton_inj hshown hc hsame⟩
          · have hfirst : MembersAccessed members := fun m hm => hmembers m (by simp [hm])
            have hfirstForms : members.map Segment.form = members := by
              rw [List.map_append] at hforms
              exact List.append_inj_left' hforms rfl
            rw [← Expr.attach_attach] at hsame
            have hbase := Expr.attach_singleton_inj hshown (hc.attach hnil hfirst hfirstForms)
              hsame
            exact ih (n := n) hmade.headed_member hnil hfirst hfirstForms hfront hbase
      | name identifier _ _ =>
          cases c <;> simp [Expr.canonical, Expr.form, Expr.attach, Expr.access] at hsame
      | _ =>
          rcases Expr.attach_kind (members ++ [last]) c with h | h <;>
            simp [← hsame, Expr.canonical, Expr.form, Expr.isReference, Expr.isChain] at h

/-- The base of members that are read again. -/
theorem member_children {base : Expr} {segments : List Segment} (h : Headed n e' ts)
    (hshaped : (Expr.member base segments span).Every Expr.Shaped)
    (hkinds : kinds ts = (Expr.member base segments span).spelled p keep here)
    (hsame : e'.canonical = (Expr.member base segments span).canonical) :
    (Expr.member base segments span).ChildrenReread p keep here := by
  rcases Expr.every_iff.mp hshaped with ⟨⟨hne, -, -, hmembers⟩, hchildren⟩
  rw [Expr.spelled_eq, Expr.arranged] at hkinds
  rcases h.exists_base (Expr.every_canonical (hchildren base (by simp [Expr.children])))
    (by simpa using hne) (Expr.membersAccessed_form hmembers) (Expr.map_form_form segments)
    (hkinds.trans (by rw [List.length_map])) hsame with ⟨base', inner, hmade, hinner, hbase⟩
  intro child hchild
  obtain rfl : child = (base, 0) := by simpa [Expr.children] using hchild
  exact ⟨base', inner, hmade, hinner.trans (by simp [Expr.children]), hbase⟩

/-- The parts of what is read again, and the level that it needs. -/
theorem children_reread (h : Headed n e' ts) (hshaped : e.Every Expr.Shaped)
    (hchain : e.isChain = false) (hn : n ≤ primaryLevel)
    (hkinds : kinds ts = e.spelled p keep here) (hsame : e'.canonical = e.canonical) :
    (n ≤ (e.render p).level ∨ e.isReference = true) ∧ e.ChildrenReread p keep here := by
  cases e with
  | literal value span => exact ⟨.inl hn, by simp [Expr.ChildrenReread, Expr.children]⟩
  | name _ _ _ _ => exact ⟨.inr rfl, by simp [Expr.ChildrenReread, Expr.children]⟩
  | member base segments span => exact ⟨.inr rfl, h.member_children hshaped hkinds hsame⟩
  | call function es qualifiers span => exact ⟨.inl hn, h.call_children hshaped hkinds hsame⟩
  | record fields span => exact ⟨.inl hn, h.record_children hshaped hkinds hsame⟩
  | table es span => exact ⟨.inl hn, h.table_children hshaped hkinds hsame⟩
  | unary op operand span =>
      exact (h.unary_children hshaped hkinds hsame).imp_left .inl
  | binary op l r span =>
      exact (h.binary_children hshaped hkinds hsame).imp_left .inl
  | chain clauses span => simp [Expr.isChain] at hchain
  | hole => exact absurd (Expr.every_iff.mp hshaped).1 id

end Headed

end

end FormulaLint
