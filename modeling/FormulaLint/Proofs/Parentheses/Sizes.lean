import FormulaLint.Proofs.Forms.Dumps
import FormulaLint.Proofs.Parentheses.Kinds

/-!
# Expressions by their numbers of words

The words of an expression are the tokens that it is made of, parentheses left out.  Their number
can be told from the canonical form of the expression.  Whatever makes up an expression has at least
these words, and more only where a separator follows the last clause of a chain.

Main results:

- Theorem {lit}`Expr.size_canonical`: the canonical form tells the number of words.
- Theorem {lit}`Derives.spreads`: the tokens of a phrase are matched and hold its words.
-/

namespace FormulaLint

namespace Expr

/-- The number of words of an expression that are in none of its children. -/
def ownWords : Expr → Nat
  | literal _ _ => 1
  | name _ _ segments _ => 1 + 2 * segments.length
  | member _ segments _ => 2 * segments.length
  | call _ arguments qualifiers _ => 1 + 2 * qualifiers.length + (arguments.length - 1)
  | record fields _ => 2 + 2 * fields.length + (fields.length - 1)
  | table elements _ => 2 + (elements.length - 1)
  | unary _ _ _ | binary _ _ _ _ => 1
  | chain clauses _ => clauses.length - 1
  | hole => 0

/-- The number of words of an expression. -/
def size (e : Expr) : Nat :=
  (e.walk.map fun part => part.2.ownWords).sum

/-- The words of an expression are its own ones and those of its children. -/
theorem size_eq (e : Expr) : e.size = e.ownWords + (e.children.map size).sum := by
  have hsize : ∀ c : Expr, c.size = ((c.walk.map Prod.snd).map ownWords).sum := by
    intro c
    rw [List.map_map]
    rfl
  rw [hsize, map_snd_walk, List.map_cons, List.sum_cons, List.map_flatMap, List.flatMap_def,
    List.sum_flatten, List.map_map]
  exact congrArg _ (congrArg _ (List.map_congr_left fun c _ => (hsize c).symm))

end Expr

/-- The number of words of some clauses, with a separator behind each. -/
def totalSize (es : List Expr) : Nat :=
  (es.map fun e => e.size + 1).sum

section

variable {e : Expr} {es es' : List Expr}

@[simp] theorem totalSize_nil : totalSize [] = 0 := rfl

@[simp] theorem totalSize_cons (e : Expr) (es : List Expr) :
    totalSize (e :: es) = e.size + 1 + totalSize es := by
  simp [totalSize]

@[simp] theorem totalSize_append (es es' : List Expr) :
    totalSize (es ++ es') = totalSize es + totalSize es' := by
  simp [totalSize]

/-- The words of clauses without those behind each. -/
theorem totalSize_eq (es : List Expr) : totalSize es = (es.map Expr.size).sum + es.length := by
  induction es with
  | nil => rfl
  | cons e es ih =>
      rw [totalSize_cons, ih, List.map_cons, List.sum_cons, List.length_cons]
      omega

namespace Expr

@[simp] theorem size_literal (value : Literal) (span : Span) : (literal value span).size = 1 := by
  simp [size_eq, ownWords, children]

@[simp] theorem size_name (identifier : Identifier) (identifierSpan : Span)
    (segments : List Segment) (span : Span) :
    (name identifier identifierSpan segments span).size = 1 + 2 * segments.length := by
  simp [size_eq, ownWords, children]

@[simp] theorem size_member (base : Expr) (segments : List Segment) (span : Span) :
    (member base segments span).size = base.size + 2 * segments.length := by
  simp [size_eq (member _ _ _), ownWords, children, Nat.add_comm]

@[simp] theorem size_call (function : String) (es : List Expr) (qualifiers : List String)
    (span : Span) :
    (call function es qualifiers span).size = 1 + 2 * qualifiers.length + (totalSize es - 1) := by
  rw [size_eq, totalSize_eq, ownWords, children]
  cases es with
  | nil => rfl
  | cons e es =>
      simp only [List.length_cons, List.map_cons, List.sum_cons]
      omega

@[simp] theorem size_record (fields : List Field) (span : Span) :
    (record fields span).size =
      2 + (totalSize (fields.map Field.value) + 2 * fields.length - 1) := by
  rw [size_eq, totalSize_eq, ownWords, children, List.length_map]
  cases fields with
  | nil => rfl
  | cons field fields =>
      simp only [List.length_cons]
      omega

@[simp] theorem size_table (es : List Expr) (span : Span) :
    (table es span).size = 2 + (totalSize es - 1) := by
  rw [size_eq, totalSize_eq, ownWords, children]
  cases es with
  | nil => rfl
  | cons e es =>
      simp only [List.length_cons, List.map_cons, List.sum_cons]
      omega

@[simp] theorem size_unary (op : Operator) (operand : Expr) (span : Span) :
    (unary op operand span).size = operand.size + 1 := by
  simp [size_eq (unary _ _ _), ownWords, children, Nat.add_comm]

@[simp] theorem size_binary (op : Operator) (left right : Expr) (span : Span) :
    (binary op left right span).size = left.size + right.size + 1 := by
  simp [size_eq (binary _ _ _ _), ownWords, children, Nat.add_comm]

@[simp] theorem size_chain (es : List Expr) (span : Span) :
    (chain es span).size = totalSize es - 1 := by
  rw [size_eq, totalSize_eq, ownWords, children]
  cases es with
  | nil => rfl
  | cons e es =>
      simp only [List.length_cons, List.map_cons, List.sum_cons]
      omega

end Expr

/-- Some clauses have words. -/
theorem totalSize_pos (hne : es ≠ []) : 0 < totalSize es := by
  rcases List.exists_cons_of_ne_nil hne with ⟨e, es, rfl⟩
  rw [totalSize_cons]
  omega

/-- The words of an expression by those of its clauses. -/
theorem Expr.totalSize_clauses (hne : e.clauses ≠ []) : totalSize e.clauses = e.size + 1 := by
  cases e with
  | chain es span =>
      have hpos := totalSize_pos (show es ≠ [] from hne)
      rw [clauses, size_chain]
      omega
  | _ => simp [clauses]

/-- The words of clauses of clauses. -/
theorem totalSize_flatMap_clauses {α : Type} {shown : α → Expr} {as : List α}
    (h : ∀ a ∈ as, (shown a).clauses ≠ []) :
    totalSize (as.flatMap fun a => (shown a).clauses) = (as.map fun a => (shown a).size + 1).sum := by
  induction as with
  | nil => rfl
  | cons a as ih =>
      rw [List.flatMap_cons, totalSize_append, ih fun b hb => h b (by simp [hb]), List.map_cons,
        List.sum_cons, Expr.totalSize_clauses (h a (by simp))]

/-- The words of an expression with members. -/
theorem Expr.size_access (members : List Segment) (e : Expr) :
    (e.access members).size = e.size + 2 * members.length := by
  cases e <;> simp only [access, size_name, size_member, List.length_append] <;> omega

/-- The words of an expression with members behind its last clause. -/
theorem Expr.size_attach (members : List Segment) (hne : e.clauses ≠ []) :
    (e.attach members).size = e.size + 2 * members.length := by
  cases hchain : e.isChain with
  | false => rw [attach_of_not_chain hchain, size_access]
  | true =>
      cases e with
      | chain es span =>
          rcases exists_snoc (show es ≠ [] from hne) with ⟨init, last, rfl⟩
          rw [attach, accessLast_snoc]
          simp only [size_chain, totalSize_append, totalSize_cons, totalSize_nil, size_access]
          omega
      | _ => simp [isChain] at hchain

/-- Every part of a tree of the grammar has words. -/
theorem Expr.Shaped.size_pos (h : e.Shaped) : 0 < e.size := by
  cases e with
  | member base segments span =>
      have hlength := List.length_pos_iff.mpr h.1
      rw [size_member]
      omega
  | chain clauses span =>
      have hlength : 2 ≤ clauses.length := h
      rw [size_chain, totalSize_eq]
      omega
  | hole => exact absurd h id
  | literal _ _ | name _ _ _ _ | call _ _ _ _ | record _ _ | table _ _ | unary _ _ _
  | binary _ _ _ _ => simp; try omega

/-- The canonical form tells the number of words. -/
theorem Expr.size_canonical (h : e.Every Expr.Shaped) : e.canonical.size = e.size := by
  induction e using children_induct with
  | step e ih =>
      rcases every_iff.mp h with ⟨hshape, hchildren⟩
      have hparts : ∀ c ∈ e.children, c.canonical.size = c.size :=
        fun c hc => ih c hc (hchildren c hc)
      have hne : ∀ c ∈ e.children, c.canonical.clauses ≠ [] := fun c hc =>
        (every_iff.mp (every_canonical (hchildren c hc))).1.clauses_ne_nil
      have htotal : ∀ es : List Expr, (∀ c ∈ es, c ∈ e.children) →
          totalSize (es.map (form Identifier.canonical attach)) = totalSize es := by
        intro es hes
        rw [totalSize, totalSize, List.map_map]
        exact congrArg _ (List.map_congr_left fun c hc => congrArg (· + 1) (hparts c (hes c hc)))
      cases e with
      | literal _ _ | hole => rfl
      | name identifier identifierSpan members span =>
          rw [canonical, form, size_name, size_name, List.length_map]
      | member base members span =>
          have hsize := size_attach (members.map Segment.form) (hne base (by simp [children]))
          rw [hparts base (by simp [children]), List.length_map] at hsize
          rw [size_member, ← hsize]
          rfl
      | call function arguments qualifiers span =>
          rw [canonical, form, formAll_eq_map, size_call, size_call,
            htotal arguments fun c hc => hc]
      | record fields span =>
          have hfields := htotal (fields.map Field.value) fun c hc => hc
          rw [List.map_map] at hfields
          rw [canonical, form, formFields_eq_map, size_record, size_record, ← hfields,
            List.length_map, List.map_map]
          rfl
      | table elements span =>
          rw [canonical, form, formAll_eq_map, size_table, size_table,
            htotal elements fun c hc => hc]
      | unary op operand span =>
          have hoperand := hparts operand (by simp [children])
          rw [canonical, form, size_unary, size_unary, ← hoperand]
          rfl
      | binary op left right span =>
          have hleft := hparts left (by simp [children])
          have hright := hparts right (by simp [children])
          rw [canonical, form, size_binary, size_binary, ← hleft, ← hright]
          rfl
      | chain clauses span =>
          have hflat : totalSize (clauses.flatMap fun c => c.canonical.clauses) =
              totalSize clauses :=
            (totalSize_flatMap_clauses hne).trans
              (congrArg _ (List.map_congr_left fun c hc => congrArg (· + 1) (hparts c hc)))
          rw [canonical_chain, size_chain, size_chain, hflat]

end

/-! ## The words of phrases -/

/-- The number of words of a phrase. -/
def Phrase.size : Phrase → Nat
  | .primary e | .member e | .suffixed e | .level _ e | .chain e => e.size
  | .clauses es | .arguments es | .elements es => totalSize es - 1
  | .fields fs => totalSize (fs.map Field.value) + 2 * fs.length - 1

/-- The kinds of some tokens. -/
def kinds (ts : List Token) : List Kind :=
  ts.map Token.kind

section

variable {e : Expr} {es : List Expr} {ts ts' : List Token} {t : Token}

@[simp] theorem kinds_nil : kinds [] = [] := rfl

@[simp] theorem kinds_cons (t : Token) (ts : List Token) : kinds (t :: ts) = t.kind :: kinds ts := rfl

@[simp] theorem kinds_append (ts ts' : List Token) : kinds (ts ++ ts') = kinds ts ++ kinds ts' :=
  List.map_append

namespace Token

/-- A parenthesis that opens. -/
theorem Opens.kind (h : t.Opens .parenthesis) : t.kind = .opening := by
  rw [Token.kind, h, kind_opening]

/-- A parenthesis that closes. -/
theorem Closes.kind (h : t.Closes .parenthesis) : t.kind = .closing := by
  rw [Token.kind, h, kind_closing]

/-- A token that is no parenthesis. -/
def IsWord (t : Token) : Prop :=
  ∃ readable, t.kind = .word readable

/-- What is no parenthesis is a word. -/
theorem isWord_of_payload {payload : Payload} (h : t.payload = payload)
    (hopening : payload ≠ .separator (.opening .parenthesis))
    (hclosing : payload ≠ .separator (.closing .parenthesis)) : t.IsWord := by
  rw [IsWord, Token.kind, h, Payload.kind, if_neg hopening, if_neg hclosing]
  exact ⟨_, rfl⟩

/-- A separator of clauses is a word. -/
theorem Chains.isWord (h : t.Chains) : t.IsWord :=
  isWord_of_payload h (by simp) (by simp)

/-- A separator of list items is a word. -/
theorem Lists.isWord (h : t.Lists) : t.IsWord :=
  isWord_of_payload h (by simp) (by simp)

/-- What stands for a literal is a word. -/
theorem isWord_of_literal {l : Literal} (h : t.literal? = some l) : t.IsWord := by
  unfold literal? at h
  split at h
  all_goals first
    | exact isWord_of_payload ‹_› (by simp) (by simp)
    | simp at h

end Token

/-- Some tokens are matched and have at least the given number of words. -/
structure Spreads (size : Nat) (ts : List Token) : Prop where
  size_le : size ≤ wordCount (kinds ts)
  matched : Matched (kinds ts)

namespace Spreads

variable {n n' : Nat}

/-- A word. -/
theorem word (h : t.IsWord) : Spreads 1 [t] := by
  rcases h with ⟨readable, hkind⟩
  refine ⟨?_, ?_⟩
  · simp [hkind]
  · rw [kinds_cons, hkind]
    exact .word readable

/-- Tokens behind each other. -/
theorem append (h : Spreads n ts) (h' : Spreads n' ts') : Spreads (n + n') (ts ++ ts') where
  size_le := by
    rw [kinds_append, wordCount_append]
    exact Nat.add_le_add h.size_le h'.size_le
  matched := by
    rw [kinds_append]
    exact h.matched.append h'.matched

/-- A word in front. -/
theorem cons (ht : t.IsWord) (h : Spreads n ts) : Spreads (1 + n) (t :: ts) :=
  (word ht).append h

/-- Tokens between parentheses. -/
theorem enclosed {opening closing : Token} (h : Spreads n ts) (hopening : opening.Opens .parenthesis)
    (hclosing : closing.Closes .parenthesis) : Spreads n (opening :: (ts ++ [closing])) where
  size_le := by
    simpa [hopening.kind, hclosing.kind] using h.size_le
  matched := by
    rw [kinds_cons, kinds_append, hopening.kind, kinds_cons, hclosing.kind, kinds_nil]
    exact h.matched.enclosed

/-- Fewer words. -/
theorem le (h : Spreads n ts) (hle : n' ≤ n) : Spreads n' ts :=
  ⟨Nat.le_trans hle h.size_le, h.matched⟩

end Spreads

/-- One more member adds two words. -/
theorem size_accessMember (e : Expr) (segment : Segment) (span : Span) :
    (accessMember e segment span).size = e.size + 2 := by
  cases e <;> simp only [accessMember, Expr.size_name, Expr.size_member, List.length_append,
    List.length_singleton] <;> omega

/-- The words of a chain of clauses. -/
theorem size_chainTree (es : List Expr) (ts : List Token) :
    (chainTree es ts).size = totalSize es - 1 := by
  unfold chainTree
  split
  · simp
  · rw [Expr.size_chain]

/-- The words of a qualified name. -/
theorem size_of_qualifiers {qualifiers : List String} (h : qualifiers? e = some qualifiers) :
    e.size + 1 = 2 * qualifiers.length := by
  unfold qualifiers? at h
  split at h
  · split at h
    · rw [← Option.some.inj h]
      simp only [Expr.size_name, List.length_cons, List.length_map]
      omega
    · simp at h
  · simp at h

/-- The tokens of a phrase are matched and hold its words. -/
theorem Derives.spreads {phrase : Phrase} (h : Derives phrase ts) : Spreads phrase.size ts := by
  induction h with
  | literal hliteral =>
      exact (Spreads.word (Token.isWord_of_literal hliteral)).le (by simp [Phrase.size])
  | name ht | global ht | field ht =>
      exact (Spreads.word (Token.isWord_of_payload ht (by simp) (by simp))).le
        (by simp [Phrase.size, reference])
  | call hname hopening _ hclosing ih =>
      have hname' := Token.isWord_of_payload hname (by simp) (by simp)
      exact (ih.enclosed hopening hclosing).cons hname' |>.le (by simp [Phrase.size])
  | group hopening _ hclosing ih => exact ih.enclosed hopening hclosing
  | record hopening _ hclosing ih =>
      have hopening' := Token.isWord_of_payload hopening (by simp) (by simp)
      have hclosing' := Token.isWord_of_payload hclosing (by simp) (by simp)
      refine (Spreads.cons hopening' (ih.append (.word hclosing'))).le ?_
      simp only [Phrase.size, Expr.size_record]
      omega
  | table hopening _ hclosing ih =>
      have hopening' := Token.isWord_of_payload hopening (by simp) (by simp)
      have hclosing' := Token.isWord_of_payload hclosing (by simp) (by simp)
      refine (Spreads.cons hopening' (ih.append (.word hclosing'))).le ?_
      simp only [Phrase.size, Expr.size_table]
      omega
  | bare _ ih | unsuffixed _ ih | operand _ ih | looser _ ih => exact ih
  | access _ _ _ hseparator hname ih =>
      have hseparator' := Token.isWord_of_payload hseparator (by simp) (by simp)
      have hname' := Token.isWord_of_payload hname (by simp) (by simp)
      refine (ih.append (.cons hseparator' (.word hname'))).le ?_
      rw [Phrase.size, size_accessMember]
      exact Nat.le_refl _
  | qualifiedCall _ hqualifiers hpoint hname hopening _ hclosing ihbase ih =>
      have hpoint' := Token.isWord_of_payload hpoint (by simp) (by simp)
      have hname' := Token.isWord_of_payload hname (by simp) (by simp)
      have hcall := Spreads.cons hname' (ih.enclosed hopening hclosing)
      refine (ihbase.append (.cons hpoint' hcall)).le ?_
      have hsize := size_of_qualifiers hqualifiers
      simp only [Phrase.size, Expr.size_call]
      omega
  | percent _ ht ih =>
      have ht' := Token.isWord_of_payload ht (by simp) (by simp)
      exact (ih.append (.word ht')).le (by simp [Phrase.size])
  | unary _ ht _ ih =>
      have ht' := Token.isWord_of_payload ht (by simp) (by simp)
      exact (ih.cons ht').le (by simp [Phrase.size, Nat.add_comm])
  | leftGrouped _ _ ht _ ihl ihr | rightGrouped _ _ ht _ ihl ihr | ungrouped _ _ ht _ ihl ihr =>
      have ht' := Token.isWord_of_payload ht (by simp) (by simp)
      refine (ihl.append (ihr.cons ht')).le ?_
      simp only [Phrase.size, Expr.size_binary]
      omega
  | firstClause _ ih | firstArgument _ ih | firstElement _ ih =>
      exact ih.le (by simp [Phrase.size])
  | nextClause _ ht _ ihes ih =>
      refine (ihes.append (ih.cons ht.isWord)).le ?_
      simp only [Phrase.size, totalSize_append, totalSize_cons, totalSize_nil]
      omega
  | chain _ ih =>
      refine ih.le ?_
      rw [Phrase.size, size_chainTree]
      exact Nat.le_refl _
  | trailedChain _ ht ih =>
      refine (ih.append (.word ht.isWord)).le ?_
      rw [Phrase.size, size_chainTree]
      exact Nat.le_add_right _ _
  | noArguments | noElements | noFields => exact ⟨by simp [Phrase.size], .nil⟩
  | nextArgument _ _ ht _ ihes ih | nextElement _ _ ht _ ihes ih =>
      refine (ihes.append (ih.cons ht.isWord)).le ?_
      simp only [Phrase.size, totalSize_append, totalSize_cons, totalSize_nil]
      omega
  | firstField hname hcolon _ ih =>
      have hname' := Token.isWord_of_payload hname (by simp) (by simp)
      have hcolon' := Token.isWord_of_payload hcolon (by simp) (by simp)
      refine ((ih.cons hcolon').cons hname').le ?_
      simp only [Phrase.size, List.map_singleton, totalSize_cons, totalSize_nil, Field.value,
        List.length_singleton]
      omega
  | nextField _ hne hseparator hname hcolon _ ihfs ih =>
      have hname' := Token.isWord_of_payload hname (by simp) (by simp)
      have hcolon' := Token.isWord_of_payload hcolon (by simp) (by simp)
      refine (ihfs.append (((ih.cons hcolon').cons hname').cons hseparator.isWord)).le ?_
      simp only [Phrase.size, List.map_append, List.map_singleton, totalSize_append,
        totalSize_cons, totalSize_nil, Field.value, List.length_append, List.length_singleton]
      omega

end

end FormulaLint
