import FormulaLint.Proofs.Lexing.Coverage
import FormulaLint.Proofs.Lexing.Locality
import FormulaLint.Proofs.Places

/-!
# Texts behind each other

A text that is read without errors is read in the same way when a blank and more text stand behind
it, and what stands behind the blank is read as if it stood alone.  Only a line comment at the end
of the first text could run on.

Main results:

- Theorem {lit}`standsFor_append_blank`: a text without errors, and the same text with a blank and
  more text behind it.
- Theorem {lit}`pieces_append_blank`: the pieces of the two texts.
- Theorem {lit}`lex_append_blank`: their tokens, comments and diagnostics.
-/

namespace FormulaLint

/-! ## Places in the front of a text -/

/-- The places in a text stay what they are when more text follows. -/
theorem LineIndex.place_append (text more : List Char) (placement : Placement) {offset : Nat}
    (h : offset ≤ text.length) :
    (ofText (text ++ more) placement).place offset = (ofText text placement).place offset := by
  induction text generalizing placement offset with
  | nil =>
      have hzero : offset = 0 := Nat.le_zero.mp h
      rw [hzero, place_zero, place_zero]
  | cons c text ih =>
      cases offset with
      | zero => rw [place_zero, place_zero]
      | succ offset =>
          have hle : offset ≤ text.length := Nat.le_of_succ_le_succ h
          by_cases hc : c = '\n'
          · subst hc
            rw [List.cons_append, place_newline, place_newline, ih _ hle]
          · rw [List.cons_append, place_cons hc, place_cons hc, ih _ hle]

/-- A span that starts at the same place. -/
theorem LineIndex.span_congr {index index' : LineIndex} {start : Int}
    (h : index.place start = index'.place start) (stop : Int) :
    index.span start stop = index'.span start stop := by
  simp only [span, h]

/-! ## Moved places -/

/-- The offsets of a span, moved by a distance; its line and its column are left out. -/
def Span.moved (distance : Int) (span : Span) : Span :=
  { start := span.start + distance, stop := span.stop + distance }

/-- A piece with its offsets moved. -/
def Piece.moved (distance : Int) (a : Piece) : Piece :=
  { a with span := a.span.moved distance }

/-- A token with its offsets moved. -/
def Token.moved (distance : Int) (t : Token) : Token :=
  { t with span := t.span.moved distance }

/-- A comment with its offsets moved. -/
def Comment.moved (distance : Int) (k : Comment) : Comment :=
  { k with span := k.span.moved distance }

/-- A diagnostic with its offsets moved. -/
def Diagnostic.moved (distance : Int) (d : Diagnostic) : Diagnostic :=
  { d with span := d.span.moved distance }

section

variable {p : Profile} {index index' : LineIndex} {before before' : Option Char}
  {offset offset' : Nat} {distance distance' : Int} {text : List Char} {ps : List Piece}

/-- The token of a moved piece is moved. -/
theorem filterMap_token_moved (distance : Int) (ps : List Piece) :
    (ps.map (Piece.moved distance)).filterMap Piece.token? =
      (ps.filterMap Piece.token?).map (Token.moved distance) := by
  rw [List.filterMap_map, List.map_filterMap]
  apply List.filterMap_congr
  intro a _
  cases hitem : a.item <;> simp [Piece.token?, Piece.moved, Token.moved, hitem]

/-- The comment of a moved piece is moved. -/
theorem filterMap_comment_moved (distance : Int) (ps : List Piece) :
    (ps.map (Piece.moved distance)).filterMap Piece.comment? =
      (ps.filterMap Piece.comment?).map (Comment.moved distance) := by
  rw [List.filterMap_map, List.map_filterMap]
  apply List.filterMap_congr
  intro a _
  cases hitem : a.item <;> simp [Piece.comment?, Piece.moved, Comment.moved, hitem]

/-- The diagnostic of a moved token is moved. -/
theorem filterMap_diagnostic_moved (distance : Int) (ts : List Token) :
    (ts.map (Token.moved distance)).filterMap Token.diagnostic? =
      (ts.filterMap Token.diagnostic?).map (Diagnostic.moved distance) := by
  rw [List.filterMap_map, List.map_filterMap]
  apply List.filterMap_congr
  intro t _
  cases hpayload : t.payload <;>
    simp [Token.diagnostic?, Token.moved, Diagnostic.moved, Diagnostic.report, hpayload]

/-- Pieces depend on the place of their text only by their own places, and on the character in
front of it only by its being blank. -/
theorem map_moved_pieces (hbefore : blankOrEnd before = blankOrEnd before')
    (hoffset : offset + distance = offset' + distance') :
    (pieces p index before offset text).map (Piece.moved distance) =
      (pieces p index' before' offset' text).map (Piece.moved distance') := by
  induction text using pieces_induct p generalizing before before' offset offset' with
  | nil => simp only [pieces_nil, List.map_nil]
  | blank c rest hblank ih =>
      rw [pieces_blank hblank, pieces_blank hblank]
      exact ih rfl (by omega)
  | found c cs behind item hblank hfound ih =>
      rw [pieces_found hblank hfound, pieces_found hblank hfound, List.map_cons, List.map_cons,
        hbefore]
      congr 1
      · simp only [Piece.moved, Span.moved, LineIndex.span, Piece.mk.injEq, Span.mk.injEq, true_and,
          and_true]
        omega
      · exact ih rfl (by omega)

/-! ## Texts without errors -/

/-- Whether a piece is an error token. -/
def Piece.IsError (a : Piece) : Prop :=
  ∃ e, a.item = .token (.error e)

/-- No word becomes an error. -/
theorem settle_eq_error_iff {item : Item} {delimited : Bool} {e : LexicalError} :
    item.settle delimited = .token (.error e) ↔ item = .token (.error e) := by
  unfold Item.settle
  split
  · rename_i name
    simp only [wordPayload]
    repeat' split
    all_goals simp
  · rfl

/-- An error that is found at the start of a text is one of its pieces. -/
theorem exists_isError {c : Char} {rest : List Char} {e : LexicalError} {n : Nat}
    (hblank : Text.isBlank c = false) (hfound : recognise p c rest = .token (.error e) n) :
    ∃ a ∈ pieces p index before offset (c :: rest), a.IsError := by
  rw [pieces_cons hblank]
  refine ⟨_, List.mem_cons_self .., e, ?_⟩
  rw [settle_eq_error_iff, hfound]
  rfl

/-- A bracket and an at sign that start no name of the application are an error. -/
theorem exists_isError_at {rest : List Char} (hbracket : bracketName? ('[' :: '@' :: rest) = none) :
    ∃ a ∈ pieces p index before offset ('[' :: '@' :: rest), a.IsError := by
  have hopening : recognise p '[' ('@' :: rest) = .token (.separator (.opening .bracket)) 0 := by
    rw [recognise_openingBracket, hbracket]
  rw [pieces_cons (by decide), hopening]
  rcases exists_isError (by decide) (recognise_at p rest) with ⟨a, ha, herror⟩
  exact ⟨a, List.mem_cons_of_mem _ ha, herror⟩

/-- A quote that is never closed is an error. -/
theorem exists_isError_quote {quote : Char} {rest : List Char} (hquote : quote ∈ ['"', '\''])
    (hclosing : Text.closing quote rest = none) :
    ∃ a ∈ pieces p index before offset (quote :: rest), a.IsError := by
  simp only [List.mem_cons, List.not_mem_nil, or_false] at hquote
  rcases hquote with rfl | rfl
  · have htext := recognise_text p rest
    rw [hclosing] at htext
    exact exists_isError (by decide) htext
  · have hname : name? ('\'' :: rest) = none := by simp [name?, hclosing]
    have hnamed := recognise_named p rest (Or.inl rfl)
    rw [hname] at hnamed
    exact exists_isError (by decide) hnamed

/-- A text without errors, and the same text with a blank and more text behind it: what is found in
front of it does not differ. -/
theorem standsFor_append_blank {w : Char} (hw : Text.isBlank w = true) (more : List Char)
    (hclean : ∀ a ∈ pieces p index before offset text, ¬ a.IsError) :
    StandsFor text (text ++ w :: more) where
  agrees := .append_blank hw text more
  closing := by
    intro quote hquote hhead hclosing
    have hblank : Text.isBlank quote = false := by
      simp only [List.mem_cons, List.not_mem_nil, or_false] at hquote
      rcases hquote with rfl | rfl <;> decide
    rcases List.head?_eq_some_iff.mp ((Agrees.append_blank hw text more).head_eq hblank hhead)
      with ⟨rest, rfl⟩
    rcases exists_isError_quote hquote hclosing with ⟨a, ha, herror⟩
    exact absurd herror (hclean a ha)
  bracket := by
    intro hnone
    cases hfound : bracketName? (text ++ w :: more) with
    | none => rfl
    | some read =>
        rcases exists_of_bracketName? hfound with ⟨c, front, rest, m, htext, -, -, -, -⟩
        have hne : ∀ d, Text.isBlank d = false → w ≠ d := by
          rintro d hd rfl
          simp [hw] at hd
        match text with
        | [] => exact absurd (List.cons.inj htext).1 (hne '[' (by decide))
        | [_] => exact absurd (List.cons.inj (List.cons.inj htext).2).1 (hne '@' (by decide))
        | d :: d' :: rest' =>
            have hd : d = '[' := (List.cons.inj htext).1
            have hd' : d' = '@' := (List.cons.inj (List.cons.inj htext).2).1
            subst hd hd'
            rcases exists_isError_at hnone with ⟨a, ha, herror⟩
            exact absurd herror (hclean a ha)

/-! ## Comments in front of a blank -/

/-- A block comment ends where it ends, whatever stands behind it. -/
theorem blockCommentLength?_append {body : List Char} {n : Nat} (more : List Char)
    (h : blockCommentLength? body = some n) : blockCommentLength? (body ++ more) = some n := by
  induction body generalizing n with
  | nil => simp [blockCommentLength?] at h
  | cons c rest ih =>
      cases rest with
      | nil => simp [blockCommentLength?] at h
      | cons d rest =>
          have hhead : (d :: rest ++ more).head? = (d :: rest).head? := rfl
          rw [blockCommentLength?] at h
          rw [List.cons_append, blockCommentLength?, hhead]
          split at h
          · rename_i hend
            rwa [if_pos hend]
          · rename_i hgoes
            rcases Option.map_eq_some_iff.mp h with ⟨k, hk, rfl⟩
            rw [if_neg hgoes, ih hk]
            rfl

/-- A character of a line comment, unless it carries the comment on to the next line. -/
theorem lineCommentLength_cons {c : Char} {rest : List Char}
    (h : ¬ (c = '\\' ∧ rest.head? = some '\n')) :
    lineCommentLength (c :: rest) = if c = '\n' then 0 else lineCommentLength rest + 1 := by
  rw [lineCommentLength]
  intro more hc hrest
  exact h ⟨hc, by rw [hrest, List.head?_cons]⟩

/-- A line comment that ends with its line ends there, whatever stands behind it. -/
theorem lineCommentLength_append {body : List Char} (more : List Char)
    (h : lineCommentLength body < body.length) :
    lineCommentLength (body ++ more) = lineCommentLength body := by
  fun_induction lineCommentLength body with
  | case1 => simp at h
  | case2 rest ih =>
      have hrest : lineCommentLength rest < rest.length := by simpa using h
      simp only [List.cons_append, lineCommentLength, ih hrest]
  | case3 rest hcarries =>
      have hnot : ¬ ('\n' = '\\' ∧ (rest ++ more).head? = some '\n') := by simp
      rw [List.cons_append, lineCommentLength_cons hnot, if_pos rfl]
  | case4 c rest hcarries hc ih =>
      have hrest : lineCommentLength rest < rest.length := by simpa using h
      cases rest with
      | nil => simp at hrest
      | cons d rest =>
          have hnot : ¬ (c = '\\' ∧ (d :: rest ++ more).head? = some '\n') := by
            intro hboth
            have hd : d = '\n' := by simpa using hboth.2
            exact hcarries rest hboth.1 (by rw [hd])
          rw [List.cons_append, lineCommentLength_cons hnot, if_neg hc, ih hrest]

/-- A comment is longer than its first character. -/
theorem comment?_extra_pos {c : Char} {rest : List Char} {found : Match}
    (h : comment? c rest = some found) : 0 < found.extra := by
  unfold comment? at h
  split at h
  · split at h
    · rcases Option.map_eq_some_iff.mp h with ⟨n, -, rfl⟩
      exact Nat.succ_pos n
    · rcases Option.some.inj h with rfl
      exact Nat.succ_pos _
    · simp at h
  · simp at h

/-- A comment that does not run on is found whatever stands behind it. -/
theorem comment?_append {rest : List Char} {found : Match} (more : List Char)
    (hline : rest.head? = some '/' → found.extra < rest.length)
    (h : comment? '/' rest = some found) : comment? '/' (rest ++ more) = some found := by
  cases rest with
  | nil => simp [comment?] at h
  | cons d body =>
      by_cases hstar : d = '*'
      · subst hstar
        rcases Option.map_eq_some_iff.mp h with ⟨n, hn, rfl⟩
        simp [comment?, blockCommentLength?_append more hn]
      · by_cases hslash : d = '/'
        · subst hslash
          rcases Option.some.inj h with rfl
          have hend : lineCommentLength body < body.length := by simpa using hline rfl
          simp [comment?, lineCommentLength_append more hend]
        · simp [comment?, hstar, hslash] at h

/-! ## A blank between two texts -/

/-- What is found at the start of a text is found there with a blank and more text behind it. -/
theorem recognise_append_blank {c w : Char} {cs behind : List Char} {item : Item}
    (hblank : Text.isBlank c = false) (hw : Text.isBlank w = true) (more : List Char)
    (hfound : recognise p c (cs ++ behind) = ⟨item, cs.length⟩)
    (hclean : ∀ a ∈ pieces p index before offset (c :: (cs ++ behind)), ¬ a.IsError)
    (hline : item = .comment → cs.head? = some '/' → behind ≠ []) :
    recognise p c (cs ++ (behind ++ w :: more)) = ⟨item, cs.length⟩ := by
  have hpieces : pieces p index before offset (c :: (cs ++ behind)) = _ :=
    pieces_found hblank hfound offset
  cases item with
  | token payload =>
      have hpayload : payload.isError = false := by
        cases payload with
        | error e =>
            rcases exists_isError hblank hfound with ⟨a, ha, herror⟩
            exact absurd herror (hclean a ha)
        | _ => rfl
      have hbehind : StandsFor behind (behind ++ w :: more) := by
        apply standsFor_append_blank hw more
        intro a ha
        apply hclean
        rw [hpieces]
        exact List.mem_cons_of_mem _ ha
      have hwhole := standsFor_append_blank hw more hclean
      rw [List.cons_append, List.append_assoc] at hwhole
      exact recognise_standsFor hbehind hwhole.bracket hpayload hfound
  | comment =>
      rcases comment?_of_recognise hfound with ⟨rfl, hcomment⟩
      have hends : (cs ++ behind).head? = some '/' → cs.length < (cs ++ behind).length := by
        intro hhead
        have hpos : 0 < cs.length := comment?_extra_pos hcomment
        rcases List.exists_cons_of_length_pos hpos with ⟨d, front, rfl⟩
        have hne := hline rfl hhead
        have hbehind : 0 < behind.length := List.length_pos_iff.mpr hne
        rw [List.length_append]
        omega
      have hcomment' := comment?_append (w :: more) hends hcomment
      rw [List.append_assoc] at hcomment'
      rw [recognise_slash, hcomment']
      rfl

/-- The pieces of a text without errors stay what they are in front of a blank, and the text behind
the blank is read by itself. -/
theorem pieces_append_blank {w : Char} (hw : Text.isBlank w = true) (more : List Char)
    (hplace : ∀ i : Nat, i ≤ text.length →
      index.place (offset + i : Nat) = index'.place (offset + i : Nat))
    (hclean : ∀ a ∈ pieces p index' before offset text, ¬ a.IsError)
    (hline : ∀ a ∈ pieces p index' before offset text, a.item = .comment →
      ['/', '/'] <+: a.lexeme.toList → a.span.stop ≠ (offset + text.length : Nat)) :
    pieces p index before offset (text ++ w :: more) =
      pieces p index' before offset text ++
        pieces p index (some w) (offset + (text.length + 1)) more := by
  induction text using pieces_induct p generalizing before offset with
  | nil => rw [List.nil_append, pieces_blank hw, pieces_nil]; rfl
  | blank c rest hblank ih =>
      rw [pieces_blank hblank] at hclean hline
      rw [List.cons_append, pieces_blank hblank, pieces_blank hblank, ih _ hclean]
      · simp only [List.length_cons, Nat.add_assoc, Nat.add_comm 1]
      · intro a ha hitem hprefix
        have hstop := hline a ha hitem hprefix
        rw [List.length_cons] at hstop
        omega
      · intro i hi
        have hsame := hplace (i + 1) (Nat.succ_le_succ hi)
        rwa [show offset + (i + 1) = offset + 1 + i by omega] at hsame
  | found c cs behind item hblank hfound ih =>
      have hpieces : pieces p index' before offset (c :: (cs ++ behind)) = _ :=
        pieces_found hblank hfound offset
      have hends : item = .comment → cs.head? = some '/' → behind ≠ [] := by
        intro hitem hhead hnil
        subst hitem hnil
        rcases comment?_of_recognise hfound with ⟨rfl, -⟩
        rcases List.head?_eq_some_iff.mp hhead with ⟨front, rfl⟩
        rw [hpieces] at hline
        apply hline _ (List.mem_cons_self ..) rfl
        · rw [String.toList_ofList]
          exact ⟨front, rfl⟩
        · simp [LineIndex.span]
      have hfound' := recognise_append_blank hblank hw more hfound hclean hends
      -- a word at the end of the first text is delimited by the blank as it was by the end
      have hnext : blankOrEnd (behind ++ w :: more).head? = blankOrEnd behind.head? := by
        cases behind with
        | nil => exact hw
        | cons d behind => rfl
      have hspan := LineIndex.span_congr (hplace 0 (Nat.zero_le _)) (offset + (cs.length + 1) : Nat)
      rw [hpieces] at hclean hline
      rw [List.cons_append, List.append_assoc, pieces_found hblank hfound', hpieces, hnext,
        List.cons_append, ih]
      · rw [Nat.add_zero] at hspan
        rw [hspan]
        simp only [List.length_cons, List.length_append, Nat.add_assoc, Nat.add_left_comm]
      · intro i hi
        have hsame := hplace (cs.length + 1 + i) (by simp; omega)
        rwa [← Nat.add_assoc] at hsame
      · intro a ha
        exact hclean a (List.mem_cons_of_mem _ ha)
      · intro a ha hitem hprefix
        have hstop := hline a (List.mem_cons_of_mem _ ha) hitem hprefix
        rw [List.length_cons, List.length_append] at hstop
        omega

end

/-- Lexing is compositional at a blank: behind a text without lexical errors that does not end
within a line comment, and behind a blank, another text is read as if it stood alone.  The tokens
and comments of the first text stay what they are, those of the second one follow with their offsets
moved, and so do its diagnostics and its end. -/
theorem lex_append_blank (p : Profile) (front : List Char) {w : Char} (more : List Char)
    (placement placement' : Placement) (hw : Text.isBlank w = true)
    (hclean : (lex p front placement).diagnostics = [])
    (hline : ∀ k ∈ (lex p front placement).comments, ['/', '/'] <+: k.lexeme.toList →
      k.span.stop ≠ front.length) :
    (∃ ts, (lex p (front ++ w :: more) placement).tokens = (lex p front placement).tokens ++ ts ∧
      ts.map (Token.moved 0) =
        (lex p more placement').tokens.map (Token.moved (front.length + 1))) ∧
    (∃ ks, (lex p (front ++ w :: more) placement).comments =
        (lex p front placement).comments ++ ks ∧
      ks.map (Comment.moved 0) =
        (lex p more placement').comments.map (Comment.moved (front.length + 1))) ∧
    (lex p (front ++ w :: more) placement).diagnostics.map (Diagnostic.moved 0) =
      (lex p more placement').diagnostics.map (Diagnostic.moved (front.length + 1)) ∧
    (lex p (front ++ w :: more) placement).stop.moved 0 =
      (lex p more placement').stop.moved (front.length + 1) := by
  have hpieces : pieces p (LineIndex.ofText (front ++ w :: more) placement) none 0
      (front ++ w :: more) = pieces p (LineIndex.ofText front placement) none 0 front ++
        pieces p (LineIndex.ofText (front ++ w :: more) placement) (some w)
          (0 + (front.length + 1)) more := by
    apply pieces_append_blank hw more
    · intro i hi
      rw [Nat.zero_add]
      exact LineIndex.place_append front (w :: more) placement hi
    · intro a ha herror
      rcases herror with ⟨e, hitem⟩
      have htoken : ⟨.error e, a.lexeme, a.span⟩ ∈ (lex p front placement).tokens :=
        List.mem_filterMap.mpr ⟨a, ha, by rw [Piece.token?, hitem]⟩
      exact absurd (isError_of_diagnostics hclean _ htoken) (by simp [Token.isError])
    · intro a ha hitem hprefix
      have hcomment : ⟨a.lexeme, a.span⟩ ∈ (lex p front placement).comments :=
        List.mem_filterMap.mpr ⟨a, ha, by rw [Piece.comment?, hitem]⟩
      rw [Nat.zero_add]
      exact hline _ hcomment hprefix
  have hmoved : (pieces p (LineIndex.ofText (front ++ w :: more) placement) (some w)
      (0 + (front.length + 1)) more).map (Piece.moved 0) =
        (pieces p (LineIndex.ofText more placement') none 0 more).map
          (Piece.moved (front.length + 1)) :=
    map_moved_pieces hw (by omega)
  have htokens := congrArg (List.filterMap Piece.token?) hmoved
  rw [filterMap_token_moved, filterMap_token_moved] at htokens
  have hcomments := congrArg (List.filterMap Piece.comment?) hmoved
  rw [filterMap_comment_moved, filterMap_comment_moved] at hcomments
  have hsplit : (lex p (front ++ w :: more) placement).tokens = (lex p front placement).tokens ++
      (pieces p (LineIndex.ofText (front ++ w :: more) placement) (some w)
        (0 + (front.length + 1)) more).filterMap Piece.token? := by
    simp only [lex, hpieces, List.filterMap_append]
  refine ⟨⟨_, hsplit, htokens⟩, ⟨_, ?_, hcomments⟩, ?_, ?_⟩
  · simp only [lex, hpieces, List.filterMap_append]
  · have hdiagnostics := congrArg (List.filterMap Token.diagnostic?) htokens
    rw [filterMap_diagnostic_moved, filterMap_diagnostic_moved] at hdiagnostics
    rw [Lexed.diagnostics, hsplit, List.filterMap_append, ← Lexed.diagnostics, hclean,
      List.nil_append, hdiagnostics]
    rfl
  · simp only [lex, LineIndex.span, Span.moved, List.length_append, List.length_cons]
    congr 1 <;> push_cast <;> omega

/-- A text with comments, a text literal and a word for an operator at its end, and behind a tab a
text with another word, a quote that is never closed and an open comment. -/
theorem lex_append_blank_word :
    let front := "'a' /* \" */ & // b\n\"c\"\"\" And".toList
    let more := "Not 1e5 'd /* e".toList
    (lex .dotDecimal front {}).diagnostics = [] ∧
    (∀ k ∈ (lex .dotDecimal front {}).comments, ['/', '/'] <+: k.lexeme.toList →
      k.span.stop ≠ front.length) ∧
    (∃ ts, (lex .dotDecimal (front ++ '\t' :: more) {}).tokens =
        (lex .dotDecimal front {}).tokens ++ ts ∧
      ts.map (Token.moved 0) =
        (lex .dotDecimal more ⟨4, 2, 0⟩).tokens.map (Token.moved (front.length + 1))) ∧
    (lex .dotDecimal (front ++ '\t' :: more) {}).diagnostics.map (Diagnostic.moved 0) =
      (lex .dotDecimal more ⟨4, 2, 0⟩).diagnostics.map (Diagnostic.moved (front.length + 1)) := by
  intro front more
  have hclean : (lex .dotDecimal front {}).diagnostics = [] := by decide +kernel
  have hline : ∀ k ∈ (lex .dotDecimal front {}).comments, ['/', '/'] <+: k.lexeme.toList →
      k.span.stop ≠ front.length := by decide +kernel
  have hjoined := lex_append_blank .dotDecimal front more {} ⟨4, 2, 0⟩ (w := '\t') (by decide)
    hclean hline
  exact ⟨hclean, hline, hjoined.1, hjoined.2.2.1⟩

end FormulaLint
