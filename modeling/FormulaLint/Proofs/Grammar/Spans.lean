import FormulaLint.Proofs.Grammar.Recovered
import FormulaLint.Proofs.Lexing.Coverage
import FormulaLint.Proofs.RoundTrip.Formula
import FormulaLint.Proofs.Rows

/-!
# Source ranges of trees

The tokens of a formula lie one behind the other.  What the grammar makes of them does too: every
tree lies where its tokens lie, and the ranges of its parts are nested as the parts are.  A clause
that was abandoned leaves a tree like any other, so the same holds of a formula with errors.

Main results:

- Theorem {lit}`Derives.lies`: a phrase lies where its tokens lie.
- Theorem {lit}`Recovers.lie`: the clauses that are recovered lie one behind the other.
- Theorem {lit}`inRow_tokens`: the tokens of a text lie one behind the other.
- Theorem {lit}`parse_places_parts`: every part of a formula that was read is at its place, around its
  own parts.
-/

namespace FormulaLint

/-! ## Trees between two offsets -/

/-- Whether the line and the column of a source range are those of its first offset. -/
def Span.IsAt (index : LineIndex) (span : Span) : Prop :=
  index.place span.start = ⟨span.line, span.column⟩

namespace Expr

variable {index : LineIndex} {start start' stop stop' : Int} {e : Expr}

/-- A part of a tree whose children lie inside it, one behind the other. -/
structure Nested (index : LineIndex) (e : Expr) : Prop where
  isAt : e.span.IsAt index
  row : InRow span e.span.start e.span.stop e.children

/-- A tree with nested parts that lies between two offsets. -/
structure LiesIn (index : LineIndex) (start stop : Int) (e : Expr) : Prop where
  nested : e.Every (Nested index)
  le_start : start ≤ e.span.start
  stop_le : e.span.stop ≤ stop

/-- A tree lies between offsets that are further apart. -/
theorem LiesIn.mono (h : e.LiesIn index start stop) (hstart : start' ≤ start)
    (hstop : stop ≤ stop') : e.LiesIn index start' stop' :=
  ⟨h.nested, Int.le_trans hstart h.le_start, Int.le_trans h.stop_le hstop⟩

/-- A tree starts before it ends. -/
theorem LiesIn.span_le (h : e.LiesIn index start stop) : e.span.start ≤ e.span.stop :=
  (every_iff.mp h.nested).1.row.le

/-- A tree starts where its place says. -/
theorem LiesIn.isAt (h : e.LiesIn index start stop) : e.span.IsAt index :=
  (every_iff.mp h.nested).1.isAt

/-- A tree by itself is a row. -/
theorem LiesIn.row (h : e.LiesIn index start stop) : InRow span start stop [e] :=
  ⟨h.le_start, h.span_le, h.stop_le⟩

/-- A tree without parts. -/
theorem liesIn_leaf (hchildren : e.children = []) (hat : e.span.IsAt index)
    (hle : e.span.start ≤ e.span.stop) (hstart : start ≤ e.span.start) (hstop : e.span.stop ≤ stop) :
    e.LiesIn index start stop := by
  refine ⟨every_iff.mpr ⟨⟨hat, ?_⟩, ?_⟩, hstart, hstop⟩
  · rw [hchildren]
    exact hle
  · simp [hchildren]

end Expr

/-- The trees of a phrase lie between two offsets, those of a list one behind the other. -/
def Phrase.Lies (index : LineIndex) (start stop : Int) : Phrase → Prop
  | .primary e | .member e | .suffixed e | .level _ e | .chain e => e.LiesIn index start stop
  | .clauses es | .arguments es | .elements es =>
      (∀ e ∈ es, e.Every (Expr.Nested index)) ∧ InRow Expr.span start stop es
  | .fields fs =>
      (∀ field ∈ fs, field.value.Every (Expr.Nested index)) ∧
        InRow (fun field => field.value.span) start stop fs

section

variable {index : LineIndex} {start stop middle : Int} {e l r : Expr} {es : List Expr}
  {ts : List Token} {span : Span}

/-- One more tree behind a list. -/
theorem lies_snoc (hes : (∀ e ∈ es, e.Every (Expr.Nested index)) ∧ InRow Expr.span start middle es)
    (he : e.LiesIn index middle stop) :
    (∀ e' ∈ es ++ [e], e'.Every (Expr.Nested index)) ∧ InRow Expr.span start stop (es ++ [e]) := by
  constructor
  · exact forall_mem_snoc hes.1 he.nested
  · exact inRow_append.mpr ⟨middle, hes.2, he.row⟩

/-- The range of some tokens is a row of them. -/
theorem inRow_tokensSpan (hne : ts ≠ []) (h : InRow Token.span start stop ts) :
    start ≤ (tokensSpan ts).start ∧ (tokensSpan ts).stop ≤ stop ∧
      InRow Token.span (tokensSpan ts).start (tokensSpan ts).stop ts := by
  rcases List.exists_cons_of_ne_nil hne with ⟨first, rest, rfl⟩
  have hlast := List.getLast?_eq_some_getLast hne
  have hmem := List.getLast_mem hne
  generalize (first :: rest).getLast hne = last at hlast hmem
  have hspan : tokensSpan (first :: rest) = first.span.cover last.span := by
    simp only [tokensSpan, List.head?_cons, hlast]
  have hfirst := h.within (List.mem_cons_self ..)
  have hbounds := h.within hmem
  have hrow : InRow Token.span first.span.start last.span.stop (first :: rest) := by
    have hto := h.to_last hlast
    exact ⟨Int.le_refl _, hto.2.1, hto.2.2⟩
  rw [hspan, Span.cover_start, Span.cover_stop]
  exact ⟨hfirst.1, by omega, hrow.mono (Int.le_refl _) (Int.le_max_right ..)⟩

/-- The range of some tokens starts where its place says. -/
theorem isAt_tokensSpan (hne : ts ≠ []) (h : ∀ t ∈ ts, t.span.IsAt index) :
    (tokensSpan ts).IsAt index := by
  rcases List.exists_cons_of_ne_nil hne with ⟨first, rest, rfl⟩
  have hspan : tokensSpan (first :: rest) =
      first.span.cover ((first :: rest).getLast hne).span := by
    simp only [tokensSpan, List.head?_cons, List.getLast?_eq_some_getLast hne]
  rw [hspan]
  exact h first (List.mem_cons_self ..)

/-- The tree of a chain lies where its tokens lie. -/
theorem liesIn_chainTree (hne : ts ≠ []) (hat : ∀ t ∈ ts, t.span.IsAt index)
    (hrow : InRow Token.span start stop ts)
    (h : ∀ start stop, InRow Token.span start stop ts → (Phrase.clauses es).Lies index start stop) :
    (chainTree es ts).LiesIn index start stop := by
  unfold chainTree
  split
  · rename_i only
    have honly := h start stop hrow
    exact ⟨honly.1 only (by simp), honly.2.1, honly.2.2.2⟩
  · rcases inRow_tokensSpan hne hrow with ⟨hstart, hstop, hspan⟩
    have hes := h _ _ hspan
    exact ⟨Expr.every_iff.mpr ⟨⟨isAt_tokensSpan hne hat, hes.2⟩, hes.1⟩, hstart, hstop⟩

/-- Accessing a member behind a tree. -/
theorem liesIn_accessMember {segment : Segment} (he : e.LiesIn index start middle)
    (hmiddle : middle ≤ span.start) (hspan : span.start ≤ span.stop) (hstop : span.stop ≤ stop) :
    (accessMember e segment span).LiesIn index start stop := by
  rcases Expr.every_iff.mp he.nested with ⟨⟨hat, hrow⟩, hchildren⟩
  have hstart := he.le_start
  have hend := he.stop_le
  have hle := he.span_le
  have hcover : (e.span.cover span).stop = span.stop := by
    rw [Span.cover_stop]
    omega
  -- the parts of a reference stay its parts
  have hkept : ∀ e' : Expr, e'.span = e.span.cover span → e'.children = e.children →
      e'.LiesIn index start stop := by
    intro e' hspan' hchildren'
    refine ⟨Expr.every_iff.mpr ⟨⟨?_, ?_⟩, ?_⟩, ?_, ?_⟩
    · rw [hspan']
      exact hat
    · rw [hspan', hchildren', hcover]
      exact hrow.mono (Int.le_refl _) (by omega)
    · rw [hchildren']
      exact hchildren
    · rw [hspan']
      exact hstart
    · rw [hspan', hcover]
      exact hstop
  -- anything else becomes a part itself
  have hfirst : (Expr.member e [segment] (e.span.cover span)).LiesIn index start stop := by
    refine ⟨Expr.every_iff.mpr ⟨⟨hat, Int.le_refl _, hle, ?_⟩, ?_⟩, hstart, ?_⟩
    · exact Int.le_max_left ..
    · simpa [Expr.children] using he.nested
    · exact hcover ▸ hstop
  cases e with
  | name _ _ _ _ | member _ _ _ => exact hkept _ rfl rfl
  | literal _ _ | call _ _ _ _ | record _ _ | table _ _ | unary _ _ _ | binary _ _ _ _ | chain _ _
  | hole => exact hfirst

/-- A tree in front of which, or behind which, an operator stands. -/
theorem liesIn_unary {op : Operator} (hspan : span.IsAt index) (hstart : start ≤ span.start)
    (hstop : span.stop ≤ stop) (he : e.LiesIn index span.start span.stop) :
    (Expr.unary op e span).LiesIn index start stop := by
  refine ⟨Expr.every_iff.mpr ⟨⟨hspan, he.row⟩, ?_⟩, hstart, hstop⟩
  intro c hc
  have hce : c = e := by simpa [Expr.children] using hc
  rw [hce]
  exact he.nested

/-- Two trees with an operator between them. -/
theorem liesIn_binary {op : Operator} (hl : l.LiesIn index start span.start)
    (hspan : span.start ≤ span.stop) (hr : r.LiesIn index span.stop stop) :
    (Expr.binary op l r (l.span.cover r.span)).LiesIn index start stop := by
  have hlspan := hl.span_le
  have hlstop := hl.stop_le
  have hrspan := hr.span_le
  have hrstart := hr.le_start
  have hrstop := hr.stop_le
  refine ⟨Expr.every_iff.mpr ⟨⟨hl.isAt, ?_⟩, ?_⟩, hl.le_start, ?_⟩
  · refine ⟨Int.le_refl _, hlspan, by omega, hrspan, Int.le_max_right ..⟩
  · intro c hc
    have hcases : c = l ∨ c = r := by simpa [Expr.children] using hc
    cases hcases with
    | inl hcl => exact hcl ▸ hl.nested
    | inr hcr => exact hcr ▸ hr.nested
  · refine Int.max_le.mpr ⟨?_, hrstop⟩
    omega

/-- A tree that ends with a closing delimiter, around the trees in front of it. -/
theorem liesIn_closed {closing : Token} (hspan : e.span = span.cover closing.span)
    (hat : span.IsAt index) (hstart : start ≤ span.start) (hle : span.start ≤ span.stop)
    (hmiddle : span.stop ≤ middle) (hclosing : closing.span.start ≤ closing.span.stop)
    (hstop : closing.span.stop ≤ stop) (hnested : ∀ c ∈ e.children, c.Every (Expr.Nested index))
    (hrow : InRow Expr.span middle closing.span.start e.children) : e.LiesIn index start stop := by
  have hinner := hrow.le
  have hcover : e.span.stop = closing.span.stop := by
    rw [hspan, Span.cover_stop]
    omega
  have hfirst : e.span.start = span.start := by rw [hspan, Span.cover_start]
  refine ⟨Expr.every_iff.mpr ⟨⟨?_, ?_⟩, hnested⟩, ?_, ?_⟩
  · rw [hspan]
    exact hat
  · rw [hfirst, hcover]
    exact hrow.mono (by omega) hclosing
  · rw [hfirst]
    exact hstart
  · rw [hcover]
    exact hstop

end

/-! ## Trees of the grammar -/

/-- The tokens of a chain are not empty. -/
theorem Derives.clauses_ne_nil {es : List Expr} {ts : List Token} (h : Derives (.clauses es) ts) :
    ts ≠ [] := by
  induction h using Derives.clauses_induct with
  | first he =>
      rintro rfl
      exact not_derives_nil _ he
  | next _ _ _ _ => simp

/-- A phrase lies where its tokens lie. -/
theorem Derives.lies {index : LineIndex} {start stop : Int} {phrase : Phrase} {ts : List Token}
    (h : Derives phrase ts) (hat : ∀ t ∈ ts, t.span.IsAt index)
    (hrow : InRow Token.span start stop ts) : phrase.Lies index start stop := by
  induction h generalizing start stop with
  | @literal t _ _ | @name t _ _ _ | @global t _ _ | @field t _ _ _ =>
      have ht := hrow.within (List.mem_singleton_self t)
      exact Expr.liesIn_leaf rfl (hat t (List.mem_singleton_self t)) ht.2.1 ht.1 ht.2.2
  | @call t opening closing _ _ _ _ _ _ _ _ ih =>
      rcases hrow with ⟨hstart, ht, hopening, hspan, hinner⟩
      rcases inRow_split.mp hinner with ⟨hts, hclosing, hstop⟩
      have hes := ih (fun t' ht' => hat t' (by simp [ht'])) hts
      exact liesIn_closed rfl (hat t (by simp)) hstart ht (by omega) hclosing hstop hes.1 hes.2
  | @group opening closing _ _ _ _ _ ih =>
      rcases hrow with ⟨hstart, hopening, hinner⟩
      rcases inRow_split.mp hinner with ⟨hts, hclosing, hstop⟩
      have he := ih (fun t' ht' => hat t' (by simp [ht'])) hts
      exact he.mono (by omega) (Int.le_trans hclosing hstop)
  | @record opening closing fs _ _ _ _ ih =>
      rcases hrow with ⟨hstart, hopening, hinner⟩
      rcases inRow_split.mp hinner with ⟨hts, hclosing, hstop⟩
      rcases ih (fun t' ht' => hat t' (by simp [ht'])) hts with ⟨hfields, hfs⟩
      have hle := Int.le_refl opening.span.stop
      refine liesIn_closed rfl (hat opening (by simp)) hstart hopening hle hclosing hstop ?_ ?_
      · intro c hc
        rcases List.mem_map.mp hc with ⟨field, hfield, rfl⟩
        exact hfields field hfield
      · exact inRow_map.mpr hfs
  | @table opening closing es _ _ _ _ ih =>
      rcases hrow with ⟨hstart, hopening, hinner⟩
      rcases inRow_split.mp hinner with ⟨hts, hclosing, hstop⟩
      rcases ih (fun t' ht' => hat t' (by simp [ht'])) hts with ⟨helements, hes⟩
      have hle := Int.le_refl opening.span.stop
      exact liesIn_closed rfl (hat opening (by simp)) hstart hopening hle hclosing hstop helements
        hes
  | bare _ ih | unsuffixed _ ih | operand _ ih | looser _ ih => exact ih hat hrow
  | access _ _ _ _ _ ih =>
      rcases inRow_split.mp hrow with ⟨hts, hseparator, hstart, ht, hstop⟩
      have he := ih (fun t' ht' => hat t' (by simp [ht'])) hts
      exact liesIn_accessMember he (by omega) ht hstop
  | qualifiedCall _ _ _ _ _ _ _ ihe ihes =>
      rcases inRow_split.mp hrow with ⟨hts, hpoint, ht, hname, hopening, hspan, hinner⟩
      rcases inRow_split.mp hinner with ⟨hes, hclosing, hstop⟩
      have he := ihe (fun t' ht' => hat t' (by simp [ht'])) hts
      have harguments := ihes (fun t' ht' => hat t' (by simp [ht'])) hes
      have hend := he.stop_le
      exact liesIn_closed rfl he.isAt he.le_start he.span_le (by omega) hclosing hstop
        harguments.1 harguments.2
  | percent _ _ ih =>
      rcases inRow_split.mp hrow with ⟨hts, ht, hstop⟩
      have he := ih (fun t' ht' => hat t' (by simp [ht'])) hts
      have hend := Int.le_trans he.stop_le (Int.le_trans ht hstop)
      refine liesIn_unary he.isAt he.le_start (Int.max_le.mpr ⟨hend, hstop⟩) ?_
      exact ⟨he.nested, Int.le_refl _, Int.le_max_left ..⟩
  | @unary _ _ t _ _ _ _ ih =>
      rcases hrow with ⟨hstart, ht, hts⟩
      have he := ih (fun t' ht' => hat t' (by simp [ht'])) hts
      have hle := hts.le
      refine liesIn_unary (hat t (by simp)) hstart (Int.max_le.mpr ⟨hle, he.stop_le⟩) ?_
      exact ⟨he.nested, Int.le_trans ht he.le_start, Int.le_max_right ..⟩
  | leftGrouped _ _ _ _ ihl ihr | rightGrouped _ _ _ _ ihl ihr | ungrouped _ _ _ _ ihl ihr =>
      rcases inRow_split.mp hrow with ⟨hts, ht, hts'⟩
      have hl := ihl (fun t' ht' => hat t' (by simp [ht'])) hts
      have hr := ihr (fun t' ht' => hat t' (by simp [ht'])) hts'
      exact liesIn_binary hl ht hr
  | firstClause _ ih | firstArgument _ ih | firstElement _ ih =>
      have he := ih hat hrow
      exact ⟨by simpa using he.nested, he.row⟩
  | nextClause _ _ _ ihes ih | nextArgument _ _ _ _ ihes ih | nextElement _ _ _ _ ihes ih =>
      rcases inRow_split.mp hrow with ⟨hts, ht, hts'⟩
      have hes := ihes (fun t' ht' => hat t' (by simp [ht'])) hts
      have he := ih (fun t' ht' => hat t' (by simp [ht'])) hts'
      exact lies_snoc hes (he.mono ht (Int.le_refl stop))
  | chain hes ih =>
      refine liesIn_chainTree hes.clauses_ne_nil hat hrow ?_
      intro start' stop' hrow'
      exact ih hat hrow'
  | trailedChain hes _ ih =>
      refine liesIn_chainTree (by simp) hat hrow ?_
      intro start' stop' hrow'
      rcases inRow_split.mp hrow' with ⟨hts, ht, hend⟩
      exact ih (fun t' ht' => hat t' (by simp [ht'])) (hts.mono (Int.le_refl _) (Int.le_trans ht hend))
  | noArguments | noElements | noFields => exact ⟨by simp, hrow⟩
  | firstField _ _ _ ih =>
      rcases hrow with ⟨hstart, ht, hcolon, hspan, hts⟩
      have he := ih (fun t' ht' => hat t' (by simp [ht'])) hts
      refine ⟨by simpa [Field.value] using he.nested, ?_⟩
      exact (he.mono (by omega) (Int.le_refl stop)).row
  | nextField _ _ _ _ _ _ ihfs ih =>
      rcases inRow_split.mp hrow with ⟨hfs, hseparator, hstart, ht, hcolon, hspan, hts⟩
      have hfields := ihfs (fun t' ht' => hat t' (by simp [ht'])) hfs
      have he := ih (fun t' ht' => hat t' (by simp [ht'])) hts
      refine ⟨forall_mem_snoc hfields.1 he.nested, inRow_append.mpr ⟨_, hfields.2, ?_⟩⟩
      exact (he.mono (by omega) (Int.le_refl stop)).row

/-! ## Clauses that are recovered -/

/-- What is skipped stands in front of the rest. -/
theorem afterSeparator_suffix (depth : Nat) (ts : List Token) : afterSeparator depth ts <:+ ts := by
  induction ts generalizing depth with
  | nil => exact List.suffix_refl []
  | cons t ts ih =>
      rw [afterSeparator]
      split
      · exact List.suffix_cons t ts
      · exact (ih _).trans (List.suffix_cons t ts)

/-- At most one clause, which lies between two offsets. -/
theorem lies_toList (index : LineIndex) {start stop : Int} {clause : Option Expr}
    (hle : start ≤ stop) (h : ∀ e, clause = some e → e.LiesIn index start stop) :
    (∀ e ∈ clause.toList, e.Every (Expr.Nested index)) ∧
      InRow Expr.span start stop clause.toList := by
  cases clause with
  | none => exact ⟨by simp, hle⟩
  | some e =>
      have he := h e rfl
      exact ⟨by simpa using he.nested, he.row⟩

/-- The clauses that are recovered lie where the tokens lie, one behind the other. -/
theorem Recovers.lie {index : LineIndex} {start stop : Int} {ts : List Token} {es : List Expr}
    (h : Recovers ts es) (hat : ∀ t ∈ ts, t.span.IsAt index)
    (hrow : InRow Token.span start stop ts) :
    (∀ e ∈ es, e.Every (Expr.Nested index)) ∧ InRow Expr.span start stop es := by
  induction h generalizing start stop with
  | last _ hclause =>
      refine lies_toList index hrow.le ?_
      intro e he
      exact ((hclause e).mp he).lies hat hrow
  | @ended current more t clause es _ _ hclause _ ih =>
      rcases inRow_append.mp hrow with ⟨middle, hcurrent, hmore⟩
      have hsuffix := afterSeparator_suffix (openDelimiters current) (t :: more)
      have hfirst := lies_toList index hcurrent.le fun e he =>
        ((hclause e).mp he).1.lies (fun t' ht' => hat t' (by simp [ht'])) hcurrent
      have hrest := ih (fun t' ht' => hat t' (List.mem_append_right current (hsuffix.subset ht')))
        (hmore.suffix hsuffix)
      constructor
      · intro e he
        rcases List.mem_append.mp he with he | he
        · exact hfirst.1 e he
        · exact hrest.1 e he
      · exact inRow_append.mpr ⟨middle, hfirst.2, hrest.2⟩

/-! ## Tokens of a text -/

section

variable {p : Profile} {index : LineIndex} {before : Option Char} {offset : Nat}
  {text : List Char} {a : Piece}

/-- The line and the column of a piece are those of its first character. -/
theorem isAt_of_mem_pieces (h : a ∈ pieces p index before offset text) : a.span.IsAt index := by
  fun_induction pieces p index before offset text with
  | case1 => simp at h
  | case2 _ _ _ _ _ ih => exact ih h
  | case3 _ _ _ _ _ _ _ _ _ ih =>
      rcases List.mem_cons.mp h with rfl | h
      · rfl
      · exact ih h

/-- A token is one of the pieces. -/
theorem exists_piece_of_mem_lex {placement : Placement} {t : Token}
    (h : t ∈ (lex p text placement).tokens) :
    ∃ a ∈ pieces p (LineIndex.ofText text placement) none 0 text, a.token? = some t ∧
      t.span = a.span := by
  rcases List.mem_filterMap.mp h with ⟨a, ha, ht⟩
  exact ⟨a, ha, ht, Piece.span_of_token ht⟩

/-- The line and the column of a token are those of its first character. -/
theorem isAt_of_mem_lex {placement : Placement} {t : Token}
    (h : t ∈ (lex p text placement).tokens) :
    t.span.IsAt (LineIndex.ofText text placement) := by
  rcases exists_piece_of_mem_lex h with ⟨a, ha, -, hspan⟩
  rw [hspan]
  exact isAt_of_mem_pieces ha

/-- The tokens of a text lie in it, one behind the other. -/
theorem inRow_tokens (p : Profile) (text : List Char) (placement : Placement) :
    InRow Token.span 0 text.length (lex p text placement).tokens := by
  have hcovers := covers_pieces p (LineIndex.ofText text placement) text
  refine inRow_of_pairwise (by omega) ?_ ?_
  · refine List.pairwise_filterMap.mpr (hcovers.ordered.imp ?_)
    intro a b hab t ht t' ht'
    rw [Piece.span_of_token ht, Piece.span_of_token ht']
    exact hab
  · intro t ht
    rcases exists_piece_of_mem_lex ht with ⟨a, ha, -, hspan⟩
    have hinside := hcovers.inside a ha
    rw [hspan]
    omega

/-- The first token of a text, or its end where there is none, stands in front of all tokens. -/
theorem inRow_first (p : Profile) (text : List Char) {placement : Placement} {first : Span}
    (h : ((lex p text placement).tokens.head?.map Token.span).getD (lex p text placement).stop =
      first) :
    first.IsAt (LineIndex.ofText text placement) ∧ 0 ≤ first.start ∧ first.start ≤ first.stop ∧
      first.stop ≤ text.length ∧
      InRow Token.span first.start text.length (lex p text placement).tokens := by
  have hrow := inRow_tokens p text placement
  have hat := fun t => @isAt_of_mem_lex p text placement t
  cases htokens : (lex p text placement).tokens with
  | nil =>
      have hend : first = (LineIndex.ofText text placement).span text.length text.length := by
        rw [← h, htokens]
        rfl
      have hstart : first.start = text.length := by rw [hend]; rfl
      have hstop : first.stop = text.length := by rw [hend]; rfl
      refine ⟨by rw [hend]; rfl, by omega, by omega, by omega, ?_⟩
      rw [hstart]
      exact Int.le_refl _
  | cons t ts =>
      rw [htokens] at hrow hat
      have hfirst : t.span = first := by
        rw [← h, htokens]
        rfl
      have hbounds := hrow.within (List.mem_cons_self ..)
      rw [← hfirst]
      exact ⟨hat t (List.mem_cons_self ..), hbounds.1, hbounds.2.1, hbounds.2.2, Int.le_refl _,
        hrow.2⟩

end

/-! ## The tree of a formula -/

namespace Expr

variable {index : LineIndex} {start stop : Int} {e : Expr}

/-- A part of a tree that was read from a text of the given length: it lies in the text, its line and
its column are those of its first character, and its children lie inside it, one behind the other. -/
structure Placed (index : LineIndex) (length : Nat) (e : Expr) : Prop where
  bounds : 0 ≤ e.span.start ∧ e.span.start ≤ e.span.stop ∧ e.span.stop ≤ length
  place : index.place e.span.start = ⟨e.span.line, e.span.column⟩
  inside : ∀ c ∈ e.children, e.span.start ≤ c.span.start ∧ c.span.stop ≤ e.span.stop
  apart : e.children.Pairwise fun a b => a.span.stop ≤ b.span.start

/-- The children of a tree lie inside it. -/
theorem LiesIn.child (h : e.LiesIn index start stop) {c : Expr} (hc : c ∈ e.children) :
    c.LiesIn index e.span.start e.span.stop := by
  rcases every_iff.mp h.nested with ⟨hnested, hchildren⟩
  have hwithin := hnested.row.within hc
  exact ⟨hchildren c hc, hwithin.1, hwithin.2.2⟩

/-- All parts of a tree lie where the tree lies. -/
theorem LiesIn.parts (h : e.LiesIn index start stop) : e.Every (LiesIn index start stop) := by
  induction e using children_induct generalizing start stop with
  | step e ih =>
      refine every_iff.mpr ⟨h, ?_⟩
      intro c hc
      refine (ih c hc (h.child hc)).imp ?_
      intro part hpart
      exact hpart.mono h.le_start h.stop_le

/-- Every part of a tree in a text is at its place. -/
theorem LiesIn.placed {length : Nat} (h : e.LiesIn index 0 length) :
    e.Every (Placed index length) := by
  refine (h.parts).imp ?_
  intro part hpart
  refine ⟨⟨hpart.le_start, hpart.span_le, hpart.stop_le⟩, hpart.isAt, ?_, ?_⟩
  · intro c hc
    have hchild := hpart.child hc
    exact ⟨hchild.le_start, hchild.stop_le⟩
  · exact (every_iff.mp hpart.nested).1.row.pairwise

/-- In walking order no part starts in front of an earlier one. -/
theorem LiesIn.pairwise_walk (h : e.LiesIn index start stop) :
    (e.walk.map fun part => part.2.span.start).Pairwise (· ≤ ·) := by
  have hparts : ∀ {c : Expr} {start stop : Int}, c.LiesIn index start stop →
      ∀ part ∈ c.walk.map Prod.snd, start ≤ part.span.start ∧ part.span.start ≤ stop := by
    intro c start stop hc part hpart
    have hlies := every_iff_forall.mp hc.parts part hpart
    exact ⟨hlies.le_start, Int.le_trans hlies.span_le hlies.stop_le⟩
  have hmap : e.walk.map (fun part => part.2.span.start) =
      (e.walk.map Prod.snd).map fun part => part.span.start := by
    rw [List.map_map]
    rfl
  rw [hmap, List.pairwise_map]
  clear hmap
  induction e using children_induct generalizing start stop with
  | step e ih =>
      rw [map_snd_walk, List.pairwise_cons, List.pairwise_flatMap]
      refine ⟨?_, ?_, ?_⟩
      · intro part hpart
        rcases List.mem_flatMap.mp hpart with ⟨c, hc, hpart⟩
        exact (hparts (h.child hc) part hpart).1
      · intro c hc
        exact ih c hc (h.child hc)
      · -- parts of different children are as far apart as these
        have hrow := (every_iff.mp h.nested).1.row.pairwise
        refine hrow.imp_of_mem ?_
        intro c c' hc hc' hapart part hpart part' hpart'
        have hleft : c.LiesIn index c.span.start c.span.stop :=
          ⟨(h.child hc).nested, Int.le_refl _, Int.le_refl _⟩
        have hright : c'.LiesIn index c'.span.start c'.span.stop :=
          ⟨(h.child hc').nested, Int.le_refl _, Int.le_refl _⟩
        have hstop := (hparts hleft part hpart).2
        have hstart := (hparts hright part' hpart').1
        omega

end Expr

/-- The chain of some clauses that lie one behind the other, none in front of its own start. -/
theorem liesIn_formulaExpr {index : LineIndex} {stop : Int} {clauses : List Expr} {start : Span}
    (hat : start.IsAt index) (hle : start.start ≤ start.stop) (hstop : start.stop ≤ stop)
    (h : (∀ e ∈ clauses, e.Every (Expr.Nested index)) ∧
      InRow Expr.span start.start stop clauses) :
    (formulaExpr clauses start).LiesIn index start.start stop := by
  unfold formulaExpr
  split
  · rename_i last hlast
    have hend := (h.2.within (List.mem_of_getLast? hlast)).2.2
    refine ⟨Expr.every_iff.mpr ⟨⟨hat, ?_⟩, h.1⟩, Int.le_refl _, Int.max_le.mpr ⟨hstop, hend⟩⟩
    exact (h.2.to_last hlast).mono (Int.le_refl _) (Int.le_max_right ..)
  · exact Expr.liesIn_leaf rfl hat hle (Int.le_refl _) hstop

/-- Every part of a formula that was read, errors or not, is at its place: it lies in the text behind
the marker, its line and its column are those of its first character, its children lie inside it and
one behind the other.  In walking order no part starts in front of an earlier one. -/
theorem parse_places_parts (p : Profile) (text : String) (placement : Placement) (parsed : Parsed)
    (h : parse p text placement = .ok parsed) (body : List Char) (place : Placement)
    (hmarker : stripMarker text.toList placement = (body, place)) :
    parsed.expr.Every (Expr.Placed (LineIndex.ofText body place) body.length) ∧
      (parsed.expr.walk.map fun part => part.2.span.start).Pairwise (· ≤ ·) := by
  rw [parse_eq hmarker] at h
  cases hread : readClauses ⟨p, (lex p body place).stop⟩ (lex p body place).tokens with
  | error n => simp [hread, Except.map] at h
  | ok progress =>
      rw [hread] at h
      obtain rfl := Except.ok.inj h
      rcases @inRow_first p body place _ rfl
        with ⟨hat, hstart, hle, hstop, hrow⟩
      have hclauses := (recovers_of_readClauses hread).lie (fun t ht => isAt_of_mem_lex ht) hrow
      have hexpr := (liesIn_formulaExpr hat hle hstop hclauses).mono hstart (Int.le_refl _)
      exact ⟨hexpr.placed, hexpr.pairwise_walk⟩

/-- A formula whose first clause is lost, and whose second one stands on another line in front of a
stray bracket. -/
theorem parse_places_parts_recovered :
    let text := "= a + ;\n(b.c).d(1; 2;, \x7bx: -y%\x7d) ]"
    let placement : Placement := ⟨3, 5, 2⟩
    ∃ parsed, parse .dotDecimal text placement = .ok parsed ∧
      parsed.expr.Every (Expr.Placed
        (LineIndex.ofText (text.toList.drop 1) ⟨3, 6, 2⟩) (text.toList.drop 1).length) ∧
      (parsed.expr.walk.map fun part => part.2.span.start).Pairwise (· ≤ ·) := by
  intro text placement
  rcases exists_parse_of_decide .dotDecimal text placement (fun parsed => parsed.clauses.length = 1)
    (by decide +kernel) with ⟨parsed, hparse, -⟩
  have hmarker : stripMarker text.toList placement = (text.toList.drop 1, ⟨3, 6, 2⟩) := by
    decide +kernel
  exact ⟨parsed, hparse, parse_places_parts .dotDecimal text placement parsed hparse _ _ hmarker⟩

end FormulaLint
