import FormulaLint.Proofs.Lexing.Joining

/-!
# Texts, names and comments that are never closed

A doubled quote stands for a quote of its text only as long as a closing quote is still to come, so
a quote is never closed exactly when the same quote does not come again at all.  In the same way a
block comment is never closed exactly when its closing mark does not come again.  Such an error can
be told from the rest of the text alone, and there is at most one of them for each of the two quotes.

Main results:

- Theorem {lit}`exists_recognise_of_mem_pieces`: a piece is what is found where it starts.
- Theorem {lit}`recognise_quote`, {lit}`recognise_openComment` and {lit}`opening_of_error`: where a
  text, a name or a comment is found that is never closed.
- Theorem {lit}`lex_unterminated`: which tokens report that something is never closed.
-/

namespace FormulaLint

/-! ## Pieces and what is found -/

section

variable {p : Profile} {index : LineIndex} {before : Option Char} {offset : Nat}
  {text rest body : List Char} {c quote : Char} {a : Piece}

/-- A piece is what is found where it starts, with the whole rest of the text behind it. -/
theorem exists_recognise_of_mem_pieces (h : a ∈ pieces p index before offset text) :
    ∃ (n : Nat) (c : Char) (rest : List Char) (delimited : Bool), a.span.start = offset + n ∧
      text.drop n = c :: rest ∧ a.item = (recognise p c rest).item.settle delimited := by
  induction text using pieces_induct p generalizing before offset with
  | nil =>
      rw [pieces_nil] at h
      simp at h
  | blank c rest hblank ih =>
      rw [pieces_blank hblank] at h
      rcases ih h with ⟨n, d, rest', delimited, hstart, hdrop, hitem⟩
      refine ⟨n + 1, d, rest', delimited, ?_, by simpa using hdrop, hitem⟩
      rw [hstart]
      push_cast
      omega
  | found c cs behind item hblank hfound ih =>
      rw [pieces_found hblank hfound] at h
      rcases List.mem_cons.mp h with rfl | h
      · exact ⟨0, c, cs ++ behind, blankOrEnd before && blankOrEnd behind.head?,
          by simp [LineIndex.span], rfl, by rw [hfound]⟩
      · rcases ih h with ⟨n, d, rest', delimited, hstart, hdrop, hitem⟩
        refine ⟨cs.length + 1 + n, d, rest', delimited, ?_, ?_, hitem⟩
        · rw [hstart]
          push_cast
          omega
        · have hlength : cs.length + 1 = (c :: cs).length := rfl
          rw [hlength, ← List.cons_append, List.drop_length_add_append, hdrop]

/-! ## Where nothing is closed -/

/-- A block comment is closed by every closing mark that is still to come. -/
theorem blockCommentLength?_eq_none_iff :
    blockCommentLength? body = none ↔ ¬ ['*', '/'] <:+: body := by
  induction body with
  | nil => simp [blockCommentLength?]
  | cons c rest ih =>
      have hmark : ['*', '/'] <+: c :: rest ↔ c = '*' ∧ rest.head? = some '/' := by
        cases rest <;> simp [List.cons_prefix_cons, eq_comm]
      rw [blockCommentLength?, List.infix_cons_iff, hmark]
      split
      · rename_i hclosed
        simp only [Bool.and_eq_true, decide_eq_true_eq] at hclosed
        simp [hclosed]
      · rename_i hopen
        simp only [Bool.and_eq_true, decide_eq_true_eq] at hopen
        rw [Option.map_eq_none_iff, ih, not_or]
        exact ⟨fun h => ⟨hopen, h⟩, And.right⟩

/-- Whether an item reports an error with a code. -/
def Item.HasError (item : Item) (code : DiagnosticCode) : Prop :=
  ∃ e, item = .token (.error e) ∧ e.code = code

/-- A quote is an error exactly when the same quote does not come again. -/
theorem recognise_quote (p : Profile) (hquote : quote ∈ ['"', '\'']) :
    (recognise p quote rest).item.HasError .unterminatedString ↔ quote ∉ rest := by
  rw [← closing_eq_none_iff]
  simp only [List.mem_cons, List.not_mem_nil, or_false] at hquote
  rcases hquote with rfl | rfl
  · rw [recognise_text]
    cases Text.closing '"' rest <;> simp [Item.HasError, Match.token, LexicalError.code]
  · rw [recognise_named p rest (Or.inl rfl)]
    cases hclosing : Text.closing '\'' rest with
    | none => simp [name?, hclosing, Item.HasError, Match.token, LexicalError.code]
    | some read =>
        rw [name?_of_closing hclosing]
        dsimp only
        split <;> simp [Item.HasError, Match.token]

/-- An opening mark is a comment or an error, and an error exactly when no closing mark comes. -/
theorem recognise_openComment (p : Profile) (body : List Char) :
    (['*', '/'] <:+: body ∧ (recognise p '/' ('*' :: body)).item = .comment) ∨
      (¬ ['*', '/'] <:+: body ∧
        (recognise p '/' ('*' :: body)).item = .token (.error .unterminatedComment)) := by
  rw [recognise_slash, ← blockCommentLength?_eq_none_iff]
  cases hread : blockCommentLength? body with
  | none =>
      refine Or.inr ⟨rfl, ?_⟩
      simp [comment?, hread, unterminatedComment?, Match.token]
  | some n =>
      refine Or.inl ⟨?_, by simp [comment?, hread]⟩
      by_contra hnone
      rw [blockCommentLength?_eq_none_iff.mpr hnone] at hread
      simp at hread

/-- Most alternatives find no errors. -/
theorem ne_error_of_alternative {alternative : Char → List Char → Option Match} {found : Match}
    (hmem : alternative ∈ [comment?, textLiteral?, disambiguated?, identifier?, number? p, operator?,
      separator? p]) (h : alternative c rest = some found) (e : LexicalError) :
    found.item ≠ .token (.error e) := by
  simp only [List.mem_cons, List.not_mem_nil, or_false] at hmem
  rcases hmem with rfl | rfl | rfl | rfl | rfl | rfl | rfl
  · simp [item_of_comment? h]
  · unfold textLiteral? at h
    split at h
    · rcases Option.map_eq_some_iff.mp h with ⟨_, -, rfl⟩
      simp [Match.token]
    · simp at h
  · unfold disambiguated? at h
    dsimp only at h
    split at h
    all_goals
      rcases Option.map_eq_some_iff.mp h with ⟨_, -, rfl⟩
      simp [Match.token]
  · rcases Option.map_eq_some_iff.mp h with ⟨_, -, rfl⟩
    simp [Match.token]
  · simp [(number?_eq_some_iff.mp h).2.2]
  · simp only [operator?, Match.token] at h
    repeat' split at h
    all_goals cases h
    all_goals simp
  · simp only [separator?, Match.token] at h
    repeat' split at h
    all_goals cases h
    all_goals simp

/-- An open text or an open name starts with its quote. -/
theorem item_of_unterminated? {error : LexicalError} {found : Match}
    (h : unterminated? quote error c rest = some found) :
    c = quote ∧ found.item = .token (.error error) := by
  unfold unterminated? at h
  split at h
  · rename_i hquote
    rcases Option.some.inj h with rfl
    exact ⟨hquote, rfl⟩
  · simp at h

/-- What is never closed starts with its opening mark. -/
theorem opening_of_error {e : LexicalError} (h : (recognise p c rest).item = .token (.error e)) :
    (e.code = .unterminatedString → c ∈ ['"', '\'']) ∧
      (e.code = .unterminatedComment → c = '/' ∧ rest.head? = some '*') := by
  unfold recognise at h
  dsimp only at h
  generalize hfirst : List.findSome? _ _ = first at h
  cases first with
  | none =>
      obtain rfl : .invalidCharacters = e := by simpa [invalidRun, Match.token] using h
      exact ⟨fun hcode => (by cases hcode), fun hcode => (by cases hcode)⟩
  | some found =>
      rw [Option.getD_some] at h
      rcases List.exists_of_findSome?_eq_some hfirst with ⟨alternative, hmem, hfound⟩
      by_cases hclean : alternative ∈ [comment?, textLiteral?, disambiguated?, identifier?, number? p,
          operator?, separator? p]
      · exact absurd h (ne_error_of_alternative hclean hfound e)
      · have hopen : alternative = unterminatedComment? ∨
            alternative = unterminated? '"' .unterminatedText ∨
              alternative = unterminated? '\'' .unterminatedName := by
          simp only [List.mem_cons, List.not_mem_nil, or_false] at hmem hclean
          tauto
        rcases hopen with rfl | rfl | rfl
        · rw [item_of_unterminatedComment? hfound, Item.token.injEq, Payload.error.injEq] at h
          subst h
          refine ⟨fun hcode => (by cases hcode), fun _ => ?_⟩
          unfold unterminatedComment? at hfound
          split at hfound
          · rename_i hmark
            simpa using hmark
          · simp at hfound
        all_goals
          rcases item_of_unterminated? hfound with ⟨rfl, hitem⟩
          rw [hitem, Item.token.injEq, Payload.error.injEq] at h
          subst h
          exact ⟨fun _ => by simp, fun hcode => (by cases hcode)⟩

/-- No word becomes an error, and no error a word. -/
theorem hasError_settle {item : Item} {delimited : Bool} {code : DiagnosticCode} :
    (item.settle delimited).HasError code ↔ item.HasError code := by
  simp only [Item.HasError, settle_eq_error_iff]

/-- No word becomes a comment. -/
theorem settle_eq_comment_iff {item : Item} {delimited : Bool} :
    item.settle delimited = .comment ↔ item = .comment := by
  unfold Item.settle
  split <;> simp

/-! ## Lexing -/

/-- A token with an error has the item of one. -/
theorem error?_eq_some_iff {t : Token} {code : DiagnosticCode} :
    t.error? = some (code, t.span) ↔ (Item.token t.payload).HasError code := by
  cases hpayload : t.payload <;> simp [Token.error?, Item.HasError, hpayload]

/-- A token is an error exactly when one is found where the token starts. -/
theorem exists_found_of_mem_tokens {placement : Placement} {t : Token}
    (h : t ∈ (lex p text placement).tokens) :
    ∃ c rest, text.drop t.span.start.toNat = c :: rest ∧
      ∀ code, t.error? = some (code, t.span) ↔ (recognise p c rest).item.HasError code := by
  rcases List.mem_filterMap.mp h with ⟨a, ha, htoken⟩
  rcases exists_recognise_of_mem_pieces ha with ⟨n, c, rest, delimited, hstart, hdrop, hitem⟩
  have hspan := Piece.span_of_token htoken
  have hpayload : a.item = .token t.payload := by
    unfold Piece.token? at htoken
    split at htoken
    · simp at htoken
    · rename_i payload hpayload
      rcases Option.some.inj htoken with rfl
      exact hpayload
  refine ⟨c, rest, ?_, fun code => ?_⟩
  · rw [hspan, hstart]
    simpa using hdrop
  · rw [error?_eq_some_iff, ← hpayload, hitem, hasError_settle]

/-- A comment is found where it starts. -/
theorem exists_found_of_mem_comments {placement : Placement} {k : Comment}
    (h : k ∈ (lex p text placement).comments) :
    ∃ c rest, text.drop k.span.start.toNat = c :: rest ∧ (recognise p c rest).item = .comment := by
  rcases List.mem_filterMap.mp h with ⟨a, ha, hcomment⟩
  rcases exists_recognise_of_mem_pieces ha with ⟨n, c, rest, delimited, hstart, hdrop, hitem⟩
  have hspan := Piece.span_of_comment hcomment
  have hsettled : a.item = .comment := by
    unfold Piece.comment? at hcomment
    split at hcomment
    · assumption
    · simp at hcomment
  refine ⟨c, rest, ?_, settle_eq_comment_iff.mp (hitem ▸ hsettled)⟩
  rw [hspan, hstart]
  simpa using hdrop

/-- The first character behind a place, and the characters behind that one. -/
theorem getElem?_of_drop {n : Nat} (h : text.drop n = c :: rest) :
    text[n]? = some c ∧ text.drop (n + 1) = rest := by
  constructor
  · rw [← List.head?_drop, h, List.head?_cons]
  · rw [← List.tail_drop, h, List.tail_cons]

/-- What stands behind the opening mark of a comment. -/
theorem exists_body_of_prefix {n : Nat} (h : text.drop n = c :: rest)
    (hmark : ['/', '*'] <+: text.drop n) :
    ∃ body, c = '/' ∧ rest = '*' :: body ∧ text.drop (n + 2) = body := by
  rcases hmark with ⟨body, hbody⟩
  obtain ⟨rfl, rfl⟩ : '/' = c ∧ '*' :: body = rest := List.cons.inj (hbody.trans h)
  refine ⟨body, rfl, rfl, ?_⟩
  rw [← List.drop_drop, ← hbody]
  rfl

/-- A token that starts with a quote is never closed exactly when the quote does not come again. -/
theorem quote_unterminated_iff {placement : Placement} {t : Token}
    (h : t ∈ (lex p text placement).tokens) (hquote : quote ∈ ['"', '\''])
    (hstart : text[t.span.start.toNat]? = some quote) :
    t.error? = some (.unterminatedString, t.span) ↔
      quote ∉ text.drop (t.span.start.toNat + 1) := by
  rcases exists_found_of_mem_tokens h with ⟨c, rest, hdrop, herror⟩
  rcases getElem?_of_drop hdrop with ⟨hhead, htail⟩
  obtain rfl : quote = c := Option.some.inj (hstart.symm.trans hhead)
  rw [herror, htail, recognise_quote p hquote]

/-- A token that starts with the opening mark of a comment is an error exactly when the closing mark
does not come. -/
theorem comment_unterminated_iff {placement : Placement} {t : Token}
    (h : t ∈ (lex p text placement).tokens)
    (hstart : ['/', '*'] <+: text.drop t.span.start.toNat) :
    t.error? = some (.unterminatedComment, t.span) ↔
      ¬ ['*', '/'] <:+: text.drop (t.span.start.toNat + 2) := by
  rcases exists_found_of_mem_tokens h with ⟨c, rest, hdrop, herror⟩
  rcases exists_body_of_prefix hdrop hstart with ⟨body, rfl, rfl, htail⟩
  rw [herror, htail]
  rcases recognise_openComment p body with ⟨hclosed, hitem⟩ | ⟨hopen, hitem⟩
  · simp [hitem, Item.HasError, hclosed]
  · simp [hitem, Item.HasError, hopen, LexicalError.code]

/-- The closing mark of a block comment comes. -/
theorem closed_of_mem_comments {placement : Placement} {k : Comment}
    (h : k ∈ (lex p text placement).comments)
    (hstart : ['/', '*'] <+: text.drop k.span.start.toNat) :
    ['*', '/'] <:+: text.drop (k.span.start.toNat + 2) := by
  rcases exists_found_of_mem_comments h with ⟨c, rest, hdrop, hitem⟩
  rcases exists_body_of_prefix hdrop hstart with ⟨body, rfl, rfl, htail⟩
  rw [htail]
  rcases recognise_openComment p body with ⟨hclosed, -⟩ | ⟨-, hopen⟩
  · exact hclosed
  · simp [hitem] at hopen

/-- The opening mark of what is never closed stands where the token starts. -/
theorem opening_of_unterminated {placement : Placement} {t : Token}
    (h : t ∈ (lex p text placement).tokens) :
    (t.error? = some (.unterminatedString, t.span) →
      ∃ quote ∈ ['"', '\''], text[t.span.start.toNat]? = some quote) ∧
    (t.error? = some (.unterminatedComment, t.span) →
      ['/', '*'] <+: text.drop t.span.start.toNat) := by
  rcases exists_found_of_mem_tokens h with ⟨c, rest, hdrop, herror⟩
  rw [herror, herror]
  constructor
  · rintro ⟨e, hitem, hcode⟩
    exact ⟨c, (opening_of_error hitem).1 hcode, (getElem?_of_drop hdrop).1⟩
  · rintro ⟨e, hitem, hcode⟩
    rcases (opening_of_error hitem).2 hcode with ⟨rfl, hhead⟩
    rcases List.head?_eq_some_iff.mp hhead with ⟨body, rfl⟩
    exact ⟨body, hdrop.symm⟩

/-- Whether a token of a text reports that something is never closed which starts with a quote. -/
def Token.leavesOpen (text : List Char) (quote : Char) (t : Token) : Bool :=
  t.error? = some (.unterminatedString, t.span) ∧ text[t.span.start.toNat]? = some quote

/-- At most one item of a list is counted when no two of them are. -/
theorem countP_le_one {α : Type} {counts : α → Bool} {l : List α}
    (h : l.Pairwise fun a b => counts a = true → counts b = false) : l.countP counts ≤ 1 := by
  induction h with
  | nil => simp
  | @cons a l hbehind _ ih =>
      rw [List.countP_cons]
      split
      · rename_i hcounts
        have hnone : l.countP counts = 0 :=
          List.countP_eq_zero.mpr fun b hb => by simp [hbehind b hb hcounts]
        omega
      · simpa using ih

/-- A quote that comes again closes what starts with an earlier one. -/
theorem countP_leavesOpen_le_one (p : Profile) (text : List Char) (placement : Placement)
    (hquote : quote ∈ ['"', '\'']) :
    (lex p text placement).tokens.countP (·.leavesOpen text quote) ≤ 1 := by
  have hcovers := covers_pieces p (LineIndex.ofText text placement) text
  refine countP_le_one (hcovers.pairwise_tokens.imp_of_mem fun {t t'} ht _ hlt hopen => ?_)
  rw [← Bool.not_eq_true]
  intro hopen'
  simp only [Token.leavesOpen, decide_eq_true_eq] at hopen hopen'
  have hnever := (quote_unterminated_iff ht hquote hopen.2).mp hopen.1
  have hlater : t.span.start.toNat + 1 ≤ t'.span.start.toNat := by
    rcases List.mem_filterMap.mp ht with ⟨a, ha, htoken⟩
    have hinside := (hcovers.inside a ha).1
    rw [← Piece.span_of_token htoken] at hinside
    omega
  refine hnever (List.mem_iff_getElem?.mpr ⟨t'.span.start.toNat - (t.span.start.toNat + 1), ?_⟩)
  rw [List.getElem?_drop, Nat.add_sub_cancel' hlater]
  exact hopen'.2

/-- What is never closed, exactly.  A token that starts with a quote is an error exactly when the
quote does not come again in the text, and a token that starts with the opening mark of a comment
exactly when the closing mark does not; where a comment is read the closing mark comes.  Nothing else
is reported as never closed, and of what starts with the same quote at most one token is. -/
theorem lex_unterminated (p : Profile) (text : List Char) (placement : Placement) :
    (∀ t ∈ (lex p text placement).tokens,
      (∀ quote ∈ ['"', '\''], text[t.span.start.toNat]? = some quote →
        (t.error? = some (.unterminatedString, t.span) ↔
          quote ∉ text.drop (t.span.start.toNat + 1))) ∧
      (['/', '*'] <+: text.drop t.span.start.toNat →
        (t.error? = some (.unterminatedComment, t.span) ↔
          ¬ ['*', '/'] <:+: text.drop (t.span.start.toNat + 2))) ∧
      (t.error? = some (.unterminatedString, t.span) →
        ∃ quote ∈ ['"', '\''], text[t.span.start.toNat]? = some quote) ∧
      (t.error? = some (.unterminatedComment, t.span) →
        ['/', '*'] <+: text.drop t.span.start.toNat)) ∧
    (∀ k ∈ (lex p text placement).comments, ['/', '*'] <+: text.drop k.span.start.toNat →
      ['*', '/'] <:+: text.drop (k.span.start.toNat + 2)) ∧
    ∀ quote ∈ ['"', '\''], (lex p text placement).tokens.countP (·.leavesOpen text quote) ≤ 1 := by
  refine ⟨fun t ht => ⟨fun quote hquote hstart => ?_, fun hstart => ?_, ?_⟩, fun k hk hstart => ?_,
    fun quote hquote => ?_⟩
  · exact quote_unterminated_iff ht hquote hstart
  · exact comment_unterminated_iff ht hstart
  · exact opening_of_unterminated ht
  · exact closed_of_mem_comments hk hstart
  · exact countP_leavesOpen_le_one p text placement hquote

/-- A run of four quotes is a text of one quote.  Behind it, a name that closes in front of a quote
which opens another one, a text, and a comment whose star does not close it are never closed. -/
theorem lex_unterminated_runs :
    let text := "\"\"\"\" 'a'' \"b /*/ c".toList
    let name : Token := ⟨.error .unterminatedName, "'", ⟨8, 9, 1, 9⟩⟩
    let comment : Token := ⟨.error .unterminatedComment, "/*/ c", ⟨13, 18, 1, 14⟩⟩
    (name ∈ (lex .dotDecimal text {}).tokens ∧ text[8]? = some '\'' ∧ '\'' ∉ text.drop 9) ∧
    (comment ∈ (lex .dotDecimal text {}).tokens ∧ ['/', '*'] <+: text.drop 13 ∧
      ¬ ['*', '/'] <:+: text.drop 15) ∧
    (lex .dotDecimal text {}).tokens.countP (·.leavesOpen text '"') ≤ 1 := by
  intro text name comment
  have hname : name ∈ (lex .dotDecimal text {}).tokens := by decide +kernel
  have hcomment : comment ∈ (lex .dotDecimal text {}).tokens := by decide +kernel
  have hquote : text[8]? = some '\'' := by decide
  have hmark : ['/', '*'] <+: text.drop 13 := by decide
  rcases lex_unterminated .dotDecimal text {} with ⟨htokens, -, hcount⟩
  exact ⟨⟨hname, hquote, ((htokens name hname).1 '\'' (by simp) hquote).mp rfl⟩,
    ⟨hcomment, hmark, ((htokens comment hcomment).2.1 hmark).mp rfl⟩, hcount '"' (by simp)⟩

end

end FormulaLint
