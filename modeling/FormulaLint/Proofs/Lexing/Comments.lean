import FormulaLint.Proofs.Lexing.Coverage
import FormulaLint.Proofs.Lexing.Fading

/-!
# Comments are blanks

Blanks in place of the comments of a text change none of its tokens.  A quote or a mark in a comment
is never looked at from outside: what starts in front of a comment either ends in front of it, or it
would have taken the comment for its own content.

Main results:

- Theorem {lit}`Blanked.standsFor`: a text without its comments may stand behind a token in place of
  the text.
- Theorem {lit}`Blanked.recognise_eq`: tokens and errors in front of it are the same.
- Theorem {lit}`Blanked.pieces_eq`: so are its pieces, without the comments.
- Theorem {lit}`lex_blankComments`: the tokens and diagnostics of a text without its comments.
-/

namespace FormulaLint

/-! ## Texts without their comments -/

/-- The second text is the first one without its comments: what is found in the first one is kept,
and where a comment is found there are blanks. -/
inductive Blanked (p : Profile) : List Char → List Char → Prop
  | nil : Blanked p [] []
  | blank {c : Char} (hblank : Text.isBlank c = true) {text text' : List Char}
      (h : Blanked p text text') : Blanked p (c :: text) (c :: text')
  | comment {c : Char} {cs behind behind' : List Char} (hblank : Text.isBlank c = false)
      (hfound : recognise p c (cs ++ behind) = ⟨.comment, cs.length⟩)
      (h : Blanked p behind behind') :
      Blanked p (c :: (cs ++ behind)) (blankOut (c :: cs) ++ behind')
  | token {c : Char} {cs behind behind' : List Char} {payload : Payload}
      (hblank : Text.isBlank c = false)
      (hfound : recognise p c (cs ++ behind) = ⟨.token payload, cs.length⟩)
      (h : Blanked p behind behind') : Blanked p (c :: (cs ++ behind)) (c :: (cs ++ behind'))

section

variable {p : Profile} {text text' : List Char}

/-- Comments fade. -/
theorem Blanked.fades (h : Blanked p text text') : Fades text text' := by
  induction h with
  | nil => exact .nil
  | blank _ _ ih => exact .keep _ ih
  | @comment c cs _ _ _ _ _ ih => exact ih.blankOut (c :: cs)
  | @token c cs _ _ _ _ _ _ ih => exact .keep c (ih.append cs)

/-- A token at the start of a text is kept. -/
theorem Blanked.of_token {c : Char} {cs behind : List Char} {payload : Payload}
    (h : Blanked p (c :: (cs ++ behind)) text') (hblank : Text.isBlank c = false)
    (hfound : recognise p c (cs ++ behind) = ⟨.token payload, cs.length⟩) :
    ∃ behind', text' = c :: (cs ++ behind') ∧ Blanked p behind behind' := by
  generalize htext : c :: (cs ++ behind) = text at h
  cases h with
  | nil => simp at htext
  | blank hblank' h =>
      rcases List.cons.inj htext with ⟨rfl, -⟩
      exact absurd (hblank.symm.trans hblank') (by decide)
  | comment _ hfound' h =>
      rcases List.cons.inj htext with ⟨rfl, hrest⟩
      rw [← hrest, hfound] at hfound'
      simp at hfound'
  | token _ hfound' h =>
      rcases List.cons.inj htext with ⟨rfl, hrest⟩
      rw [← hrest, hfound] at hfound'
      have hlength := congrArg Match.extra hfound'
      rcases List.append_inj hrest hlength with ⟨rfl, rfl⟩
      exact ⟨_, rfl, h⟩

/-- Where a quoted name starts, a token is found that is no shorter than the name. -/
theorem exists_token_of_closing (p : Profile) {content : List Char} {n : Nat}
    (h : Text.closing '\'' text = some (content, n)) :
    ∃ payload k, recognise p '\'' text = .token payload k ∧ n ≤ k := by
  rw [recognise_named p text (Or.inl rfl), name?_of_closing h]
  dsimp only
  split
  · exact ⟨_, _, rfl, by omega⟩
  · exact ⟨_, _, rfl, by omega⟩

/-- A quoted name at the start of a text is kept, and what stands behind it fades. -/
theorem Blanked.quoted {rest content : List Char} {n : Nat}
    (h : Blanked p ('\'' :: text) ('\'' :: rest))
    (hclosing : Text.closing '\'' text = some (content, n)) :
    ∃ front behind behind', front.length = n ∧ text = front ++ behind ∧ rest = front ++ behind' ∧
      Fades behind behind' := by
  rcases exists_token_of_closing p hclosing with ⟨payload, k, hfound, hle⟩
  have hk : k ≤ text.length := by
    have hextra := recognise_extra_le p '\'' text
    rwa [hfound] at hextra
  have hlength : (text.take k).length = k := by
    rw [List.length_take]
    omega
  have hsplit : text.take k ++ text.drop k = text := List.take_append_drop k text
  rw [← hsplit] at h
  rcases h.of_token (by decide) (by rw [hsplit, hlength, hfound]; rfl) with ⟨behind', hrest, hbehind⟩
  have hfront : (text.take k).take n ++ (text.take k).drop n = text.take k :=
    List.take_append_drop n _
  refine ⟨(text.take k).take n, (text.take k).drop n ++ text.drop k,
    (text.take k).drop n ++ behind', ?_, ?_, ?_, hbehind.fades.append _⟩
  · rw [List.length_take]
    omega
  · rw [← List.append_assoc, hfront, hsplit]
  · rw [← List.append_assoc, hfront]
    exact (List.cons.inj hrest).2

/-- A quoted name at the start of a text is found without the comments as it was found with them. -/
theorem Blanked.closing_eq {rest content : List Char} {n : Nat}
    (h : Blanked p ('\'' :: text) ('\'' :: rest))
    (hclosing : Text.closing '\'' rest = some (content, n)) :
    ∃ front behind behind', front.length = n ∧ text = front ++ behind ∧ rest = front ++ behind' ∧
      Fades behind behind' ∧ Text.closing '\'' text = some (content, n) := by
  have hfades : Fades text rest := by
    rcases h.fades.of_cons (by decide) with ⟨rest', heq, hrest⟩
    rwa [(List.cons.inj heq).2]
  cases hread : Text.closing '\'' text with
  | none =>
      have hnone := hfades.closing_eq_none (by decide) hread
      simp [hnone] at hclosing
  | some read =>
      rcases h.quoted hread with ⟨front, behind, behind', hlength, rfl, rfl, hbehind⟩
      have hread' : Text.closing '\'' (front ++ behind) = some (read.1, front.length) := by
        rw [hread, hlength]
      have hsame := closing_append (by decide) hbehind.agrees.head
        (hbehind.closing_tail (by decide)) hread'
      rw [hlength, hclosing] at hsame
      rcases Option.some.inj hsame with hpair
      have hcount : n = read.2 := congrArg Prod.snd hpair
      refine ⟨front, behind, behind', hlength.trans hcount.symm, rfl, rfl, hbehind, ?_⟩
      rw [← hsame]

/-- A bracket and an at sign that start no name of the application are kept, and so is what stands
in front of a quote behind them. -/
theorem Blanked.behind_at {rest : List Char} (h : Blanked p ('[' :: '@' :: '\'' :: text) rest)
    (hnone : bracketName? ('[' :: '@' :: '\'' :: text) = none) :
    ∃ rest', rest = '[' :: '@' :: rest' ∧ Blanked p ('\'' :: text) rest' := by
  have hopening : recognise p '[' ([] ++ '@' :: '\'' :: text) =
      ⟨.token (.separator (.opening .bracket)), 0⟩ := by
    rw [List.nil_append, recognise_openingBracket, hnone]
    rfl
  have hat : recognise p '@' ([] ++ '\'' :: text) = ⟨.token (.error .invalidCharacters), 0⟩ := by
    have hboundary : isBoundary '\'' = true := by decide
    rw [List.nil_append, recognise_at]
    simp [invalidRun, hboundary, Match.token]
  rcases Blanked.of_token h (by decide) hopening with ⟨first, rfl, hfirst⟩
  rcases Blanked.of_token hfirst (by decide) hat with ⟨second, rfl, hsecond⟩
  exact ⟨second, rfl, hsecond⟩

/-- Without comments no name of the application appears that was not there. -/
theorem Blanked.bracketName?_eq_none (h : Blanked p text text')
    (hnone : bracketName? text = none) : bracketName? text' = none := by
  cases hfound : bracketName? text' with
  | none => rfl
  | some read =>
      rcases exists_of_bracketName? hfound with ⟨d, front, rest, m, rfl, hname, hlength, -, -⟩
      have hspace : d ≠ ' ' := by
        rintro rfl
        exact absurd (not_blank_of_start (start_of_name? hname)) (by decide)
      have hfirst : ' ' ∉ ['[', '@', d] := by simp [Ne.symm hspace]
      rcases h.fades.of_append hfirst with ⟨inside, rfl, hinside⟩
      -- the same name stands in the text with its comments
      have hname' : ∃ more, inside = front ++ ']' :: more ∧
          name? (d :: (front ++ ']' :: more)) = some m := by
        by_cases hquote : d = '\''
        · subst hquote
          rcases h.behind_at hnone with ⟨rest', heq, hblanked⟩
          rw [← (List.cons.inj (List.cons.inj heq).2).2] at hblanked
          rw [name?, if_pos rfl] at hname
          rcases Option.map_eq_some_iff.mp hname with ⟨⟨content, n⟩, hclosing, rfl⟩
          rcases hblanked.closing_eq hclosing
            with ⟨front', behind, behind', hn, rfl, hrest, hbehind, hclosing'⟩
          have hcount : front'.length = front.length := by
            have hone : n + 1 = front.length + 1 := hlength
            omega
          rcases List.append_inj hrest.symm hcount with ⟨rfl, rfl⟩
          rcases hbehind.of_cons (by decide) with ⟨more, rfl, -⟩
          exact ⟨more, rfl, name?_of_closing hclosing'⟩
        · have hplain : ' ' ∉ front ++ [']'] := by
            intro hmem
            rcases List.mem_append.mp hmem with hfront | hbracket
            · have hcontinues := continuesName_of_name? hquote hname hlength ' ' hfront
              exact absurd hcontinues (by decide)
            · simp at hbracket
          have hinside' : Fades inside (front ++ [']'] ++ rest) := by simpa using hinside
          rcases hinside'.of_append hplain with ⟨more, rfl, -⟩
          refine ⟨more, by simp, ?_⟩
          exact name?_append front (']' :: rest) (']' :: more) (Or.inl rfl) (by simp) hlength hname
      rcases hname' with ⟨more, rfl, hname'⟩
      have hbracket := bracketName?_of_name? hname' hlength
      simp [hbracket] at hnone

/-- A text without its comments may stand behind a token in place of the text. -/
theorem Blanked.standsFor (h : Blanked p text text') : StandsFor text text' where
  agrees := h.fades.agrees
  closing := by
    intro quote hquote hhead hnone
    apply h.fades.closing_tail _ hhead hnone
    rintro rfl
    simp at hquote
  bracket := h.bracketName?_eq_none

/-- What is found in front of comments is found in front of blanks, an error like any token. -/
theorem Blanked.recognise_eq {c : Char} {cs behind behind' : List Char} {payload : Payload}
    (h : Blanked p behind behind') (hblank : Text.isBlank c = false)
    (hfound : recognise p c (cs ++ behind) = ⟨.token payload, cs.length⟩) :
    recognise p c (cs ++ behind') = ⟨.token payload, cs.length⟩ := by
  have hbracket := (Blanked.token hblank hfound h).bracketName?_eq_none
  by_cases hclean : payload.isError = false
  · exact recognise_standsFor h.standsFor hbracket hclean hfound
  · cases payload with
    | error e => exact recognise_error_fades h.fades hbracket hfound
    | _ => exact absurd rfl hclean

end

/-! ## Pieces -/

/-- Whether a piece is a word for an operator that is read as a name. -/
def Piece.IsWord (a : Piece) : Prop :=
  ∃ word ∈ operatorWords, a.item = .token (.identifier word false)

/-- Whether a piece is no comment. -/
def Piece.isToken (a : Piece) : Bool :=
  a.token?.isSome

section

variable {p : Profile} {index : LineIndex} {before before' : Option Char} {offset : Nat}
  {text text' : List Char}

/-- A token stays one, whatever a word stands for. -/
theorem isToken_settle (payload : Payload) (delimited : Bool) (lexeme : String) (span : Span) :
    Piece.isToken ⟨(Item.token payload).settle delimited, lexeme, span⟩ = true := by
  unfold Item.settle
  split
  · rfl
  · rfl

/-- A token is no comment, whatever a word stands for. -/
theorem comment?_settle (payload : Payload) (delimited : Bool) (lexeme : String) (span : Span) :
    Piece.comment? ⟨(Item.token payload).settle delimited, lexeme, span⟩ = none := by
  unfold Item.settle
  split
  · rfl
  · rfl

/-- Blanks in front of a text are no pieces. -/
theorem pieces_blanks {bs : List Char} (hne : bs ≠ []) (h : ∀ d ∈ bs, Text.isBlank d = true)
    (offset : Nat) (text : List Char) :
    pieces p index before offset (bs ++ text) =
      pieces p index bs.getLast? (offset + bs.length) text := by
  induction bs generalizing before offset with
  | nil => exact absurd rfl hne
  | cons c bs ih =>
      rw [List.cons_append, pieces_blank (h c (List.mem_cons_self ..))]
      cases bs with
      | nil => rfl
      | cons d bs =>
          rw [ih (List.cons_ne_nil d bs) (fun d' hd' => h d' (List.mem_cons_of_mem _ hd')),
            List.getLast?_cons_cons, List.length_cons (a := c), Nat.add_assoc, Nat.add_comm 1]

/-- Characters that are blanked out are blanks. -/
theorem isBlank_of_mem_blankOut {cs : List Char} {d : Char} (h : d ∈ blankOut cs) :
    Text.isBlank d = true := by
  rcases List.mem_map.mp h with ⟨c, -, rfl⟩
  split <;> decide

/-- What a word stands for depends on the blanks around it only if it is a word for an operator. -/
theorem settle_congr {item : Item} {delimited delimited' : Bool}
    (h : ∀ word ∈ operatorWords, item = .token (.identifier word false) → delimited = delimited') :
    item.settle delimited = item.settle delimited' := by
  unfold Item.settle
  split
  · rename_i word
    cases hword : Operator.ofWord? word with
    | none => simp [wordPayload, hword]
    | some op => rw [h word (mem_operatorWords_of_ofWord? hword) rfl]
  · rfl

/-- Behind a token stands the same character without the comments, or a comment. -/
theorem Blanked.head_eq (h : Blanked p text text') :
    text'.head? = text.head? ∨
      ∃ k ∈ pieces p index before offset text, k.item = .comment ∧ k.span.start = offset := by
  cases h with
  | nil => exact Or.inl rfl
  | blank _ _ => exact Or.inl rfl
  | comment hblank hfound _ =>
      rw [pieces_found hblank hfound]
      exact Or.inr ⟨_, List.mem_cons_self .., rfl, rfl⟩
  | token _ _ _ => exact Or.inl rfl

/-- The pieces of a text without its comments are its pieces that are no comments, provided that no
word for an operator that is read as a name touches a comment. -/
theorem Blanked.pieces_eq (h : Blanked p text text')
    (hends : blankOrEnd before = true → blankOrEnd before' = true)
    (hstart : ∀ a ∈ pieces p index before offset text, a.IsWord → a.span.start = offset →
      blankOrEnd before = blankOrEnd before')
    (hapart : ∀ a ∈ pieces p index before offset text, a.IsWord →
      ∀ k ∈ pieces p index before offset text, k.item = .comment →
        k.span.stop ≠ a.span.start ∧ a.span.stop ≠ k.span.start) :
    pieces p index before' offset text' =
      (pieces p index before offset text).filter Piece.isToken := by
  induction h generalizing before before' offset with
  | nil => rw [pieces_nil, pieces_nil, List.filter_nil]
  | blank hblank h ih =>
      rw [pieces_blank hblank] at hapart
      rw [pieces_blank hblank, pieces_blank hblank]
      exact ih (fun hend => hend) (fun _ _ _ _ => rfl) hapart
  | @comment c cs behind behind' hblank hfound h ih =>
      have hne : blankOut (c :: cs) ≠ [] := by simp [blankOut]
      have hlength : (blankOut (c :: cs)).length = cs.length + 1 := by simp [blankOut]
      have hblanks := fun d (hd : d ∈ blankOut (c :: cs)) => isBlank_of_mem_blankOut hd
      have hend : blankOrEnd (blankOut (c :: cs)).getLast? = true := by
        rw [List.getLast?_eq_some_getLast hne]
        exact isBlank_of_mem_blankOut (List.getLast_mem hne)
      rw [pieces_found hblank hfound] at hapart
      rw [pieces_blanks hne hblanks, hlength, pieces_found hblank hfound,
        List.filter_cons_of_neg (by simp [Piece.isToken, Piece.token?, Item.settle])]
      apply ih (fun _ => hend)
      · intro a ha hword hoffset
        have hstop := (hapart a (List.mem_cons_of_mem _ ha) hword _ (List.mem_cons_self ..) rfl).1
        exact absurd hoffset.symm hstop
      · intro a ha hword k hk hcomment
        exact hapart a (List.mem_cons_of_mem _ ha) hword k (List.mem_cons_of_mem _ hk) hcomment
  | @token c cs behind behind' payload hblank hfound h ih =>
      have hfound' := h.recognise_eq hblank hfound
      have hsettle : (Item.token payload).settle (blankOrEnd before' && blankOrEnd behind'.head?) =
          (Item.token payload).settle (blankOrEnd before && blankOrEnd behind.head?) := by
        apply settle_congr
        intro word hword hitem
        rw [hitem] at hfound
        have hpieces : pieces p index before offset (c :: (cs ++ behind)) = _ :=
          pieces_found hblank hfound offset
        rw [hpieces] at hstart hapart
        cases hdelimited : blankOrEnd before && blankOrEnd behind.head? with
        | true =>
            have hboth := Bool.and_eq_true_iff.mp hdelimited
            rw [hends hboth.1, h.fades.blankOrEnd hboth.2]
            rfl
        | false =>
            have hplain : ∀ w ∈ operatorWords, wordPayload w false = .identifier w false := by
              decide
            have hisWord : Piece.IsWord ⟨(Item.token (.identifier word false)).settle
                (blankOrEnd before && blankOrEnd behind.head?), String.ofList (c :: cs),
                index.span offset (offset + (cs.length + 1) : Nat)⟩ := by
              rw [hdelimited]
              exact ⟨word, hword, congrArg Item.token (hplain word hword)⟩
            rw [← hdelimited, hstart _ (List.mem_cons_self ..) hisWord rfl]
            rcases h.head_eq with hsame | ⟨k, hk, hcomment, hplace⟩
            · rw [hsame]
            · have hstop := (hapart _ (List.mem_cons_self ..) hisWord k
                (List.mem_cons_of_mem _ hk) hcomment).2
              exact absurd hplace.symm hstop
      rw [pieces_found hblank hfound] at hapart
      rw [pieces_found hblank hfound, pieces_found hblank hfound', hsettle,
        List.filter_cons_of_pos (isToken_settle payload _ _ _)]
      congr 1
      apply ih (fun hend => hend) (fun _ _ _ _ => rfl)
      intro a ha hword k hk hcomment
      exact hapart a (List.mem_cons_of_mem _ ha) hword k (List.mem_cons_of_mem _ hk) hcomment

end

/-! ## Blanks in place of comments -/

/-- Whether a place of a text lies in one of the comments. -/
def hidden (comments : List Comment) (place : Int) : Bool :=
  comments.any fun k => decide (k.span.start ≤ place ∧ place < k.span.stop)

/-- A text whose first character has the given offset, with a blank in place of every character of a
comment; line feeds stay. -/
def blankComments (comments : List Comment) : Nat → List Char → List Char
  | _, [] => []
  | offset, c :: rest =>
      (if hidden comments offset = true ∧ c ≠ '\n' then ' ' else c) ::
        blankComments comments (offset + 1) rest

section

variable {p : Profile} {index : LineIndex} {before : Option Char} {offset : Nat}
  {comments : List Comment} {cs : List Char}

/-- Texts behind each other. -/
theorem blankComments_append (comments : List Comment) (offset : Nat) (cs rest : List Char) :
    blankComments comments offset (cs ++ rest) =
      blankComments comments offset cs ++ blankComments comments (offset + cs.length) rest := by
  induction cs generalizing offset with
  | nil => rfl
  | cons c cs ih =>
      simp only [List.cons_append, blankComments, ih, List.length_cons]
      rw [Nat.add_assoc, Nat.add_comm 1]

/-- Outside the comments nothing changes. -/
theorem blankComments_shown
    (h : ∀ i : Nat, offset ≤ i → i < offset + cs.length → hidden comments i = false) :
    blankComments comments offset cs = cs := by
  induction cs generalizing offset with
  | nil => rfl
  | cons c cs ih =>
      have hfirst := h offset (Nat.le_refl _) (by simp)
      have hrest : blankComments comments (offset + 1) cs = cs := by
        apply ih
        intro i hle hlt
        exact h i (by omega) (by rw [List.length_cons]; omega)
      simp [blankComments, hfirst, hrest]

/-- A comment is blanked out. -/
theorem blankComments_hidden
    (h : ∀ i : Nat, offset ≤ i → i < offset + cs.length → hidden comments i = true) :
    blankComments comments offset cs = blankOut cs := by
  induction cs generalizing offset with
  | nil => rfl
  | cons c cs ih =>
      have hfirst := h offset (Nat.le_refl _) (by simp)
      have hrest : blankComments comments (offset + 1) cs = blankOut cs := by
        apply ih
        intro i hle hlt
        exact h i (by omega) (by rw [List.length_cons]; omega)
      by_cases hc : c = '\n' <;> simp [blankComments, blankOut, hfirst, hrest, hc]

/-- Nothing in front of a text lies in its comments. -/
theorem hidden_of_lt {text : List Char} {i : Nat} (h : i < offset) :
    hidden ((pieces p index before offset text).filterMap Piece.comment?) i = false := by
  refine List.any_eq_false.mpr ?_
  intro k hk hinside
  rcases List.mem_filterMap.mp hk with ⟨a, ha, hcomment⟩
  have hbounds := (pieces_lies ha).bounds.1
  rw [Piece.span_of_comment hcomment] at hinside
  have hstart := (of_decide_eq_true hinside).1
  omega

/-- Blanks in place of the comments of a text leave the text without its comments. -/
theorem blanked_blankComments (text : List Char)
    (h : ∀ i : Nat, offset ≤ i → hidden comments i =
      hidden ((pieces p index before offset text).filterMap Piece.comment?) i) :
    Blanked p text (blankComments comments offset text) := by
  induction text using pieces_induct p generalizing before offset with
  | nil => exact .nil
  | blank c rest hblank ih =>
      rw [pieces_blank hblank] at h
      have hfirst : hidden comments offset = false := by
        rw [h offset (Nat.le_refl _)]
        exact hidden_of_lt (Nat.lt_succ_self offset)
      have hrest := ih fun i hle => h i (Nat.le_of_succ_le hle)
      simp only [blankComments, hfirst, Bool.false_eq_true, false_and, ↓reduceIte]
      exact .blank hblank hrest
  | found c cs behind item hblank hfound ih =>
      rw [pieces_found hblank hfound] at h
      rw [← List.cons_append, blankComments_append, List.length_cons]
      cases item with
      | comment =>
          -- the first comment hides its own characters and none behind it
          have hcons : ∀ i : Nat, offset ≤ i → hidden comments i =
              (decide ((offset : Int) ≤ i ∧ (i : Int) < (offset + (cs.length + 1) : Nat)) ||
                hidden ((pieces p index (c :: cs).getLast? (offset + (cs.length + 1))
                  behind).filterMap Piece.comment?) i) := h
          have hwhole : blankComments comments offset (c :: cs) = blankOut (c :: cs) := by
            apply blankComments_hidden
            intro i hle hlt
            rw [List.length_cons] at hlt
            rw [hcons i hle, decide_eq_true (by omega), Bool.true_or]
          have hrest : ∀ i : Nat, offset + (cs.length + 1) ≤ i → hidden comments i =
              hidden ((pieces p index (c :: cs).getLast? (offset + (cs.length + 1))
                behind).filterMap Piece.comment?) i := by
            intro i hle
            rw [hcons i (by omega), decide_eq_false (by omega), Bool.false_or]
          rw [hwhole]
          exact .comment hblank hfound (ih hrest)
      | token payload =>
          have hcons : ∀ i : Nat, offset ≤ i → hidden comments i =
              hidden ((pieces p index (c :: cs).getLast? (offset + (cs.length + 1))
                behind).filterMap Piece.comment?) i := by
            intro i hle
            rw [h i hle, List.filterMap_cons_none (comment?_settle payload _ _ _)]
          have hwhole : blankComments comments offset (c :: cs) = c :: cs := by
            apply blankComments_shown
            intro i hle hlt
            rw [hcons i hle]
            exact hidden_of_lt hlt
          rw [hwhole]
          exact .token hblank hfound (ih fun i hle => hcons i (by omega))

end

/-- A text without its comments is lexed like the text, except that it has no comments. -/
theorem Blanked.lex_eq {p : Profile} {text text' : List Char} (h : Blanked p text text')
    (placement : Placement)
    (hapart : ∀ t ∈ (lex p text placement).tokens, ∀ word ∈ operatorWords,
      t.payload = .identifier word false → ∀ k ∈ (lex p text placement).comments,
        k.span.stop ≠ t.span.start ∧ t.span.stop ≠ k.span.start) :
    lex p text' placement =
      ⟨(lex p text placement).tokens, [], (lex p text placement).stop⟩ := by
  have hindex : LineIndex.ofText text' placement = LineIndex.ofText text placement := by
    simp only [LineIndex.ofText, lineStarts, h.fades.lineStartsFrom_eq]
  have hpieces : pieces p (LineIndex.ofText text placement) none 0 text' =
      (pieces p (LineIndex.ofText text placement) none 0 text).filter Piece.isToken := by
    apply h.pieces_eq (fun hend => hend) (fun _ _ _ _ => rfl)
    intro a ha hword k hk hcomment
    rcases hword with ⟨word, hmem, hitem⟩
    have ht : ⟨.identifier word false, a.lexeme, a.span⟩ ∈ (lex p text placement).tokens :=
      List.mem_filterMap.mpr ⟨a, ha, by rw [Piece.token?, hitem]⟩
    have hk' : ⟨k.lexeme, k.span⟩ ∈ (lex p text placement).comments :=
      List.mem_filterMap.mpr ⟨k, hk, by rw [Piece.comment?, hcomment]⟩
    exact hapart _ ht word hmem rfl _ hk'
  have htokens : ∀ ps : List Piece,
      (ps.filter Piece.isToken).filterMap Piece.token? = ps.filterMap Piece.token? := by
    intro ps
    rw [List.filterMap_filter]
    congr 1
    funext a
    cases htoken : a.token? <;> simp [Piece.isToken, htoken]
  have hcomments : ∀ ps : List Piece,
      (ps.filter Piece.isToken).filterMap Piece.comment? = [] := by
    intro ps
    refine List.filterMap_eq_nil_iff.mpr ?_
    intro a ha
    have htoken := (List.mem_filter.mp ha).2
    cases hitem : a.item <;> simp [Piece.isToken, Piece.token?, Piece.comment?, hitem] at htoken ⊢
  simp only [lex, hindex, hpieces, htokens, hcomments, h.fades.length_eq]

/-- Comments are transparent: unless a word for an operator that is read as a name touches a
comment, a text with blanks in place of its comments has the same tokens and the same diagnostics,
and no comments. -/
theorem lex_blankComments (p : Profile) (text : List Char) (placement : Placement)
    (hapart : ∀ t ∈ (lex p text placement).tokens, ∀ word ∈ operatorWords,
      t.payload = .identifier word false → ∀ k ∈ (lex p text placement).comments,
        k.span.stop ≠ t.span.start ∧ t.span.stop ≠ k.span.start) :
    let blanked := lex p (blankComments (lex p text placement).comments 0 text) placement
    blanked.tokens = (lex p text placement).tokens ∧
      blanked.diagnostics = (lex p text placement).diagnostics ∧
      blanked.comments = [] ∧ blanked.stop = (lex p text placement).stop := by
  have hblanked : Blanked p text (blankComments (lex p text placement).comments 0 text) :=
    blanked_blankComments text fun _ _ => rfl
  rw [hblanked.lex_eq placement hapart]
  exact ⟨rfl, rfl, rfl, rfl⟩

/-- A text with quotes in its comments, of which one is carried on to the next line, with a word for
an operator that is read as a name, and with an open text and an open comment at its end. -/
theorem lex_blankComments_open :
    let text := "a/* ' */[@b] // \\\n\" c\nNot(d) And \"e /* f".toList
    let blanked := blankComments (lex .commaDecimal text {}).comments 0 text
    (∀ t ∈ (lex .commaDecimal text {}).tokens, ∀ word ∈ operatorWords,
      t.payload = .identifier word false → ∀ k ∈ (lex .commaDecimal text {}).comments,
        k.span.stop ≠ t.span.start ∧ t.span.stop ≠ k.span.start) ∧
    blanked = "a       [@b]     \n   \nNot(d) And \"e /* f".toList ∧
    (lex .commaDecimal blanked {}).tokens = (lex .commaDecimal text {}).tokens ∧
    (lex .commaDecimal blanked {}).diagnostics = (lex .commaDecimal text {}).diagnostics ∧
    (lex .commaDecimal blanked {}).comments = [] := by
  intro text blanked
  have hapart : ∀ t ∈ (lex .commaDecimal text {}).tokens, ∀ word ∈ operatorWords,
      t.payload = .identifier word false → ∀ k ∈ (lex .commaDecimal text {}).comments,
        k.span.stop ≠ t.span.start ∧ t.span.stop ≠ k.span.start := by decide +kernel
  have htransparent := lex_blankComments .commaDecimal text {} hapart
  exact ⟨hapart, by decide +kernel, htransparent.1, htransparent.2.1, htransparent.2.2.1⟩

end FormulaLint
