import FormulaLint.Proofs.Parentheses.Readings
import FormulaLint.Proofs.RoundTrip.Expressions

/-!
# Items and clauses among tokens

The tokens of a list make up its items, with a separator between each two.  Clauses of a chain may
be held together by a group with members behind it, which shows them as clauses of its own; as such
a group does not come apart, the clauses that some tokens stand for can still be told by their
numbers of words.

Main results:

- Theorem {lit}`Phrase.MadeOf.itemsOf`: the tokens of a list make up its items.
- Theorem {lit}`Headed.fits`: several clauses that are read as one are in a group.
- Theorem {lit}`exists_split`: joined items come apart where their clauses do.
-/

namespace FormulaLint

/-! ## Items of lists -/

/-- The tokens make up items, one behind the other with a separator between each two and the same
words in front of each. -/
def Itemized (item : Expr → Phrase) (lead : List Kind) (es : List Expr) (ts : List Token) : Prop :=
  ∃ items : List (Expr × List Token), items.map Prod.fst = es ∧
    (∀ i ∈ items, (item i.1).MadeOf i.2) ∧ kinds ts = joined (items.map fun i => lead ++ kinds i.2)

section

variable {item : Expr → Phrase} {lead : List Kind} {e : Expr} {es : List Expr}
  {ts inner front : List Token} {t : Token}

/-- Nothing holds no items. -/
theorem Itemized.nil : Itemized item lead [] [] :=
  ⟨[], rfl, by simp, rfl⟩

/-- An item. -/
theorem Itemized.single (h : (item e).MadeOf inner) (hts : kinds ts = lead ++ kinds inner) :
    Itemized item lead [e] ts :=
  ⟨[(e, inner)], rfl, by simpa using h, by simpa using hts⟩

/-- One more item. -/
theorem Itemized.snoc (hes : Itemized item lead es front) (hne : es ≠ [])
    (ht : t.kind = .word true) (h : (item e).MadeOf inner) (hts : kinds ts = lead ++ kinds inner) :
    Itemized item lead (es ++ [e]) (front ++ t :: ts) := by
  rcases hes with ⟨items, rfl, hitems, hfront⟩
  refine ⟨items ++ [(e, inner)], by simp, forall_mem_snoc hitems h, ?_⟩
  rw [List.map_append, joined_append (by simpa using hne) (by simp), kinds_append, kinds_cons, ht,
    hfront, hts, List.map_singleton, joined_singleton]

namespace Token

/-- A separator of clauses. -/
theorem Chains.kind (h : t.Chains) : t.kind = .word true := by
  rw [Token.kind, h, kind_of_not_number (by simp) (by simp) (by simp)]

/-- A separator of list items. -/
theorem Lists.kind (h : t.Lists) : t.kind = .word true := by
  rw [Token.kind, h, kind_of_not_number (by simp) (by simp) (by simp)]

end Token

/-- The name of a field and the colon behind it. -/
theorem kinds_fieldLead {colon : Token} {name : String} {quoted : Bool}
    (hname : t.payload = .identifier name quoted) (hcolon : colon.payload = .separator .colon) :
    kinds (t :: colon :: ts) = [.word true, .word true] ++ kinds ts := by
  rw [kinds_cons, kinds_cons, Token.kind, Token.kind, hname, hcolon,
    kind_of_not_number (by simp) (by simp) (by simp),
    kind_of_not_number (by simp) (by simp) (by simp)]
  rfl

end

/-- The items of a list. -/
def Phrase.ItemsOf : Phrase → List Token → Prop
  | .arguments es => Itemized .chain [] es
  | .elements es | .clauses es => Itemized (.level 0) [] es
  | .fields fs => Itemized (.level 0) [.word true, .word true] (fs.map Field.value)
  | .primary _ | .member _ | .suffixed _ | .level _ _ | .chain _ => fun _ => True

/-- The tokens of a list make up its items. -/
theorem Phrase.MadeOf.itemsOf {phrase : Phrase} {ts : List Token} (h : phrase.MadeOf ts) :
    phrase.ItemsOf ts := by
  rcases h with ⟨h, hts⟩
  induction h with
  | noArguments | noElements | noFields => exact .nil
  | firstClause h | firstArgument h | firstElement h => exact .single ⟨h, hts⟩ rfl
  | nextClause hes ht he ihes =>
      have hne := (hes.shaped fun t ht => hts t (by simp [ht])).1
      exact (ihes fun t ht => hts t (by simp [ht])).snoc hne ht.kind
        ⟨he, fun t ht => hts t (by simp [ht])⟩ rfl
  | nextArgument _ hne ht he ihes | nextElement _ hne ht he ihes =>
      exact (ihes fun t ht => hts t (by simp [ht])).snoc hne ht.kind
        ⟨he, fun t ht => hts t (by simp [ht])⟩ rfl
  | firstField hname hcolon he =>
      exact .single ⟨he, fun t ht => hts t (by simp [ht])⟩ (kinds_fieldLead hname hcolon)
  | nextField _ hne ht hname hcolon he ihfs =>
      rw [ItemsOf, List.map_append]
      exact (ihfs fun t ht => hts t (by simp [ht])).snoc (by simpa using hne) ht.kind
        ⟨he, fun t ht => hts t (by simp [ht])⟩ (kinds_fieldLead hname hcolon)
  | _ => trivial

/-- Clauses one behind the other make up a list of clauses. -/
theorem exists_clauses {items : List (Expr × List Token)}
    (h : ∀ i ∈ items, (Phrase.level 0 i.1).MadeOf i.2) (hne : items ≠ []) :
    ∃ ts, (Phrase.clauses (items.map Prod.fst)).MadeOf ts ∧
      kinds ts = joined (items.map fun i => kinds i.2) := by
  induction items with
  | nil => exact absurd rfl hne
  | cons i items ih =>
      have hi := h i (by simp)
      by_cases hrest : items = []
      · subst hrest
        exact ⟨i.2, ⟨.firstClause hi.derives, hi.numerals⟩, by simp⟩
      · rcases ih (fun j hj => h j (by simp [hj])) hrest with ⟨ts, hts, hkinds⟩
        -- any separator of clauses will do
        let separator : Token := ⟨.separator .chaining, "", default⟩
        have hseparator : separator.Chains := rfl
        refine ⟨i.2 ++ separator :: ts, ⟨?_, ?_⟩, ?_⟩
        · exact Derives.clauses_append (.firstClause hi.derives) hseparator hts.derives
        · intro t ht number hnumber
          rcases List.mem_append.mp ht with ht | ht
          · exact hi.numerals t ht number hnumber
          · rcases List.mem_cons.mp ht with rfl | ht
            · simp [separator] at hnumber
            · exact hts.numerals t ht number hnumber
        · rw [kinds_append, kinds_cons, hseparator.kind, hkinds, List.map_cons,
            joined_cons (by simpa using hrest)]

/-! ## Clauses -/

/-- The tokens start with a group that holds all clauses but the end of the last one. -/
def LedByGroup (ks : List Kind) (es : List Expr) : Prop :=
  ∃ inner tail init last, ks = .opening :: (inner ++ .closing :: tail) ∧ Matched inner ∧
    es = init ++ [last] ∧ wordCount tail < last.size

/-- Tokens that can stand for the given clauses in a chain: for one, or for several that a group
holds together. -/
structure Fits (ks : List Kind) (es : List Expr) : Prop where
  matched : Matched ks
  count : wordCount ks + 1 = totalSize es
  led : 2 ≤ es.length → LedByGroup ks es

/-- Nothing, or a separator and more. -/
def Separated (ks : List Kind) : Prop :=
  ks = [] ∨ ∃ rest, ks = .word true :: rest

section

variable {ks ks' rest rest' : List Kind} {es es' : List Expr}

/-- The first item of a list and what is behind it. -/
theorem joined_eq_append (ks : List Kind) (parts : List (List Kind)) :
    ∃ rest, joined (ks :: parts) = ks ++ rest ∧ Separated rest := by
  by_cases hparts : parts = []
  · exact ⟨[], by simp [hparts], .inl rfl⟩
  · exact ⟨_, joined_cons hparts, .inr ⟨_, rfl⟩⟩

/-- Tokens in front of separators that hold as many words are the same. -/
theorem eq_of_wordCount_eq (hrest : Separated rest) (hrest' : Separated rest')
    (hcount : wordCount ks = wordCount ks') (heq : ks ++ rest = ks' ++ rest') :
    ks = ks' ∧ rest = rest' := by
  rcases List.append_eq_append_iff.mp heq with ⟨more, rfl, hmore⟩ | ⟨more, rfl, hmore⟩
  · cases more with
    | nil => exact ⟨by simp, hmore⟩
    | cons k more =>
        rcases hrest with rfl | ⟨rest, rfl⟩
        · simp at hmore
        · obtain ⟨rfl, -⟩ := List.cons.inj hmore
          simp at hcount
  · cases more with
    | nil => exact ⟨by simp, hmore.symm⟩
    | cons k more =>
        rcases hrest' with rfl | ⟨rest', rfl⟩
        · simp at hmore
        · obtain ⟨rfl, -⟩ := List.cons.inj hmore
          simp at hcount

/-- Of two fronts the one with fewer words is the shorter one. -/
theorem prefix_of_wordCount_lt (hrest : Separated rest) (hcount : wordCount ks < wordCount ks')
    (heq : ks ++ rest = ks' ++ rest') : ∃ more, ks' = ks ++ .word true :: more ∧
      rest = .word true :: (more ++ rest') := by
  rcases List.append_eq_append_iff.mp heq with ⟨more, rfl, hmore⟩ | ⟨more, rfl, -⟩
  · cases more with
    | nil => simp at hcount
    | cons k more =>
        rcases hrest with rfl | ⟨rest, rfl⟩
        · simp at hmore
        · obtain ⟨rfl, htail⟩ := List.cons.inj hmore
          exact ⟨more, rfl, congrArg _ htail⟩
  · rw [wordCount_append] at hcount
    omega

/-- The clauses that a group holds together do not come apart. -/
theorem Fits.not_prefix (h : Fits (ks ++ rest) (es ++ es')) (hks : Matched ks) (hne : es' ≠ [])
    (hsize : ∀ e ∈ es, 0 < e.size) (hcount : wordCount ks + 1 = totalSize es) : False := by
  have hes : es ≠ [] := by
    rintro rfl
    simp at hcount
  have hpos : 0 < wordCount ks := by
    rcases List.exists_cons_of_ne_nil hes with ⟨e, es, rfl⟩
    have he := hsize e (by simp)
    rw [totalSize_cons] at hcount
    omega
  have hks' : ks ≠ [] := by
    rintro rfl
    simp at hpos
  have hlength : 2 ≤ (es ++ es').length := by
    have h₁ := List.length_pos_iff.mpr hes
    have h₂ := List.length_pos_iff.mpr hne
    rw [List.length_append]
    omega
  rcases h.led hlength with ⟨inner, tail, init, last, hgroup, hinner, hclauses, htail⟩
  rcases hks.group hks' hinner hgroup with ⟨more, rfl, -⟩
  -- the last clause is among those behind
  rcases Expr.exists_snoc hne with ⟨es'', last', rfl⟩
  rw [← List.append_assoc] at hclauses
  obtain ⟨-, hlast⟩ := List.append_inj' hclauses rfl
  obtain rfl := List.singleton_inj.mp hlast
  have htotal := h.count
  rw [hgroup] at htotal
  simp only [totalSize_append, totalSize_cons, totalSize_nil, wordCount_opening, wordCount_append,
    wordCount_closing] at htotal hcount
  omega

/-- Items that are joined come apart where the tokens of a part of their clauses end. -/
theorem exists_split {α : Type} {tokens : α → List Kind} {clauses : α → List Expr} {items : List α}
    (hitems : ∀ i ∈ items, Fits (tokens i) (clauses i)) (hks : Matched ks)
    (hsize : ∀ e ∈ es, 0 < e.size) (hcount : wordCount ks + 1 = totalSize es)
    (hkinds : joined (items.map tokens) = ks ++ rest) (hrest : Separated rest)
    (hclauses : items.flatMap clauses = es ++ es') :
    ∃ front back, items = front ++ back ∧ front ≠ [] ∧ joined (front.map tokens) = ks ∧
      front.flatMap clauses = es := by
  induction items generalizing ks es with
  | nil =>
      obtain ⟨rfl, -⟩ := List.nil_eq_append_iff.mp hclauses
      simp at hcount
  | cons i items ih =>
      have hi := hitems i (by simp)
      have hcount' := hi.count
      rcases joined_eq_append (tokens i) (items.map tokens) with ⟨rest', hjoined, hrest'⟩
      rw [List.map_cons, hjoined] at hkinds
      have hwhole : es = clauses i → ∃ front back, i :: items = front ++ back ∧ front ≠ [] ∧
          joined (front.map tokens) = ks ∧ front.flatMap clauses = es := by
        rintro rfl
        have hks' := (eq_of_wordCount_eq hrest' hrest (by omega) hkinds).1
        exact ⟨[i], items, rfl, by simp, by simpa using hks', by simp⟩
      rw [List.flatMap_cons] at hclauses
      rcases List.append_eq_append_iff.mp hclauses with ⟨more, rfl, hmore⟩ | ⟨more, hmore, -⟩
      · by_cases hnil : more = []
        · exact hwhole (by simp [hnil])
        · have hpos := totalSize_pos hnil
          rw [totalSize_append, ← hcount'] at hcount
          rcases prefix_of_wordCount_lt hrest' (by omega) hkinds with ⟨ks', rfl, htail⟩
          rw [wordCount_append, wordCount_word] at hcount
          have hne : items.map tokens ≠ [] := by
            intro hempty
            rw [hempty, joined_singleton] at hjoined
            simp [htail] at hjoined
          have hjoined' : joined (items.map tokens) = ks' ++ rest := by
            rw [joined_cons hne, htail] at hjoined
            simpa using hjoined
          have hks' : Matched ks' := by
            rw [← List.singleton_append, ← List.append_assoc] at hks
            exact hks.of_append (hi.matched.append (.word true))
          rcases ih (fun j hj => hitems j (by simp [hj])) hks' (fun e he => hsize e (by simp [he]))
            (by omega) hjoined' hmore with ⟨front, back, rfl, hfront, hfrontKinds, hfrontClauses⟩
          refine ⟨i :: front, back, rfl, by simp, ?_, ?_⟩
          · rw [List.map_cons, joined_cons (by simpa using hfront), hfrontKinds]
          · rw [List.flatMap_cons, hfrontClauses]
      · by_cases hnil : more = []
        · exact hwhole (by simp [hmore, hnil])
        · have hpos := totalSize_pos hnil
          rw [hmore, totalSize_append, ← hcount] at hcount'
          rcases prefix_of_wordCount_lt hrest (by omega) hkinds.symm with ⟨behind, hbehind, -⟩
          rw [hmore, hbehind] at hi
          exact (hi.not_prefix hks hnil hsize hcount).elim

end
section

variable {e : Expr} {ts : List Token} {n : Int}

/-- What can be shown has words. -/
theorem Expr.Showable.size_pos (h : e.Showable) : 0 < e.size := by
  cases e with
  | member base segments span =>
      obtain ⟨-, -, -, hne, -⟩ := h
      have hlength := List.length_pos_iff.mpr hne
      rw [size_member]
      omega
  | chain clauses span =>
      obtain ⟨-, hlength, -⟩ := h
      rw [size_chain, totalSize_eq]
      omega
  | hole => exact absurd h id
  | literal _ _ | name _ _ _ _ | call _ _ _ _ | record _ _ | table _ _ | unary _ _ _
  | binary _ _ _ _ => simp; try omega

/-- The clauses that an expression shows have words. -/
theorem Expr.size_pos_of_mem_clauses (h : e.Every Expr.Shaped) :
    ∀ c ∈ e.canonical.clauses, 0 < c.size :=
  fun c hc => (every_iff.mp ((every_canonical h).clauses c hc).1).1.size_pos

/-- A part shows some clauses. -/
theorem Expr.clauses_canonical_ne_nil (h : e.Every Expr.Shaped) : e.canonical.clauses ≠ [] :=
  (every_iff.mp (every_canonical h)).1.clauses_ne_nil

/-- Where an expression shows a chain, tokens that make it up without being one are led by a
group. -/
theorem Headed.ledByGroup (h : Headed n e ts) (hshaped : e.Every Expr.Shaped)
    (hchain : e.canonical.isChain = true) : LedByGroup (kinds ts) e.canonical.clauses := by
  induction hlength : ts.length using Nat.strongRecOn generalizing n e ts with
  | _ length ih =>
      cases h with
      | group hopening hinner hclosing =>
          rcases Expr.exists_snoc (Expr.clauses_canonical_ne_nil hshaped) with ⟨init, last, heq⟩
          have hlast := Expr.size_pos_of_mem_clauses hshaped last (by simp [heq])
          refine ⟨_, [], init, last, ?_, hinner.spreads.matched, heq, by simpa using hlast⟩
          rw [kinds_cons, kinds_append, kinds_cons, kinds_nil, hopening.kind, hclosing.kind]
      | @access e front separator t segment nameSpan hfront hseparator ht =>
          rw [Expr.canonical_accessMember] at hchain ⊢
          rw [Expr.isChain_attach] at hchain
          rcases ih _ (by simp [← hlength]) (n := n) hfront.headed_member hfront.shaped hchain rfl
            with ⟨inner, tail, init, last, hkinds, hinner, heq, htail⟩
          rcases hseparator with ⟨r, hseparator⟩
          rcases ht with ⟨r', ht⟩
          refine ⟨inner, tail ++ [.word r, .word r'], init, last.access [segment.form], ?_, hinner,
            ?_, ?_⟩
          · rw [kinds_append, kinds_cons, kinds_cons, kinds_nil, hkinds, hseparator, ht]
            simp
          · rw [Expr.clauses_attach hchain, heq, Expr.accessLast_snoc]
          · rw [Expr.size_access, wordCount_append]
            simpa using htail
      | _ => simp [Expr.canonical, Expr.form, Expr.isChain] at hchain

/-- What is read as one fits the clauses that it shows. -/
theorem Headed.fits (h : Headed n e ts) (hshaped : e.Every Expr.Shaped)
    (hmatched : Matched (kinds ts)) (hcount : wordCount (kinds ts) = e.size) :
    Fits (kinds ts) e.canonical.clauses where
  matched := hmatched
  count := by
    rw [hcount, Expr.totalSize_clauses (Expr.clauses_canonical_ne_nil hshaped),
      Expr.size_canonical hshaped]
  led := by
    intro hlength
    refine h.ledByGroup hshaped ?_
    by_contra hchain
    rw [Expr.clauses_of_not_chain (by simpa using hchain)] at hlength
    simp at hlength

end
end FormulaLint
