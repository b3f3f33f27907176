import FormulaLint.Token.Lex

/-!
# Lexing covers the text

The tokens and comments of a text lie one behind the other, each where its own characters stand,
and between them there is nothing but blanks.  Errors are tokens like all others, so no part of a
malformed text is lost.

Main results:

- Theorem {lit}`pieces_lies`: every piece holds the characters of its own place.
- Theorem {lit}`pieces_ordered`: the pieces lie one behind the other.
- Theorem {lit}`pieces_blank_outside`: outside the pieces there are blanks only.
- Theorem {lit}`lex_covers`: tokens, comments, end and diagnostics of a text.
-/

namespace FormulaLint

/-- The characters of a text in a source range. -/
def slice (text : List Char) (span : Span) : List Char :=
  (text.drop span.start.toNat).take (span.stop - span.start).toNat

/-- Pieces that cover a text: they lie one behind the other, none is empty or starts with a blank,
each holds the characters of its own place, and blanks alone stand outside. -/
structure Covers (text : List Char) (ps : List Piece) : Prop where
  ordered : ps.Pairwise fun a b => a.span.stop ≤ b.span.start
  inside : ∀ a ∈ ps, 0 ≤ a.span.start ∧ a.span.start < a.span.stop ∧ a.span.stop ≤ text.length
  lexeme_eq : ∀ a ∈ ps, a.lexeme.toList = slice text a.span
  starts : ∀ a ∈ ps, ∃ c, text[a.span.start.toNat]? = some c ∧ Text.isBlank c = false
  blank_outside : ∀ (i : Nat) (c : Char), text[i]? = some c →
    (∀ a ∈ ps, ¬ (a.span.start ≤ i ∧ i < a.span.stop)) → Text.isBlank c = true

/-! ## Pieces of a text -/

/-- A piece that lies in a text whose first character has the given offset: it starts with a
character that is not blank, and its span runs from there to its end. -/
def Piece.Lies (offset : Nat) (text : List Char) (a : Piece) : Prop :=
  ∃ front c lexeme behind, text = front ++ (c :: lexeme ++ behind) ∧ Text.isBlank c = false ∧
    a.lexeme = String.ofList (c :: lexeme) ∧ a.span.start = offset + front.length ∧
    a.span.stop = offset + front.length + (lexeme.length + 1)

section

variable {p : Profile} {index : LineIndex} {before : Option Char} {offset : Nat}
  {text front : List Char} {a : Piece}

/-- A piece of the end of a text lies in the whole text. -/
theorem Piece.Lies.append (h : a.Lies (offset + front.length) text) :
    a.Lies offset (front ++ text) := by
  rcases h with ⟨front', c, lexeme, behind, rfl, hblank, hlexeme, hstart, hstop⟩
  refine ⟨front ++ front', c, lexeme, behind, by simp, hblank, hlexeme, ?_, ?_⟩
  · rw [hstart]
    simp [Int.add_assoc]
  · rw [hstop]
    simp [Int.add_assoc]

/-- A piece of the rest of a text lies in the whole text. -/
theorem Piece.Lies.cons (c : Char) (h : a.Lies (offset + 1) text) : a.Lies offset (c :: text) := by
  have happend : a.Lies offset ([c] ++ text) := h.append
  exact happend

/-- The pieces of a text lie in it. -/
theorem pieces_lies (h : a ∈ pieces p index before offset text) : a.Lies offset text := by
  fun_induction pieces p index before offset text with
  | case1 => simp at h
  | case2 before offset c rest hblank ih => exact (ih h).cons c
  | case3 before offset c rest hblank found lexeme behind stop ih =>
      have htext : c :: rest = lexeme ++ behind := by simp [lexeme, behind]
      rcases List.mem_cons.mp h with rfl | h
      · refine ⟨[], c, rest.take found.extra, behind, htext, by simpa using hblank, rfl, ?_, ?_⟩
        · simp [LineIndex.span]
        · simp [LineIndex.span, stop, lexeme]
      · rw [htext]
        exact (ih h).append

/-- A piece lies between the ends of its text. -/
theorem Piece.Lies.bounds (h : a.Lies offset text) :
    offset ≤ a.span.start ∧ a.span.start < a.span.stop ∧ a.span.stop ≤ offset + text.length := by
  rcases h with ⟨front, c, lexeme, behind, rfl, -, -, hstart, hstop⟩
  rw [hstart, hstop]
  simp only [List.length_append, List.length_cons]
  omega

/-- The pieces of a text lie one behind the other. -/
theorem pieces_ordered :
    (pieces p index before offset text).Pairwise fun a b => a.span.stop ≤ b.span.start := by
  fun_induction pieces p index before offset text with
  | case1 => exact .nil
  | case2 before offset c rest hblank ih => exact ih
  | case3 before offset c rest hblank found lexeme behind stop ih =>
      refine List.pairwise_cons.mpr ⟨fun b hb => ?_, ih⟩
      exact (pieces_lies hb).bounds.1

/-- Outside the pieces of a text there are blanks only. -/
theorem pieces_blank_outside (i : Nat) {c : Char} (hi : text[i]? = some c)
    (h : ∀ a ∈ pieces p index before offset text,
      ¬ (a.span.start ≤ ↑(offset + i) ∧ ↑(offset + i) < a.span.stop)) :
    Text.isBlank c = true := by
  fun_induction pieces p index before offset text generalizing i with
  | case1 => simp at hi
  | case2 before offset d rest hblank ih =>
      cases i with
      | zero =>
          obtain rfl : d = c := by simpa using hi
          exact hblank
      | succ i =>
          refine ih i (by simpa using hi) fun a ha => ?_
          have hout := h a ha
          rwa [show offset + (i + 1) = offset + 1 + i by omega] at hout
  | case3 before offset d rest hblank found lexeme behind stop ih =>
      have htext : d :: rest = lexeme ++ behind := by simp [lexeme, behind]
      -- the character does not belong to the first piece, so it stands behind it
      have hbehind : lexeme.length ≤ i := by
        have hout := h _ (List.mem_cons_self ..)
        simp only [LineIndex.span, stop] at hout
        omega
      refine ih (i - lexeme.length) ?_ fun a ha => ?_
      · rw [htext, List.getElem?_append_right hbehind] at hi
        exact hi
      · have hout := h a (List.mem_cons_of_mem _ ha)
        rwa [show offset + i = stop + (i - lexeme.length) by simp only [stop]; omega] at hout

/-- A piece holds the characters of its own place. -/
theorem Piece.Lies.lexeme_eq (h : a.Lies 0 text) : a.lexeme.toList = slice text a.span := by
  rcases h with ⟨front, c, lexeme, behind, rfl, -, hlexeme, hstart, hstop⟩
  have hdrop : a.span.start.toNat = front.length := by omega
  have htake : (a.span.stop - a.span.start).toNat = (c :: lexeme).length := by
    simp only [List.length_cons]
    omega
  rw [slice, hdrop, htake, hlexeme, String.toList_ofList, List.drop_left, List.take_left]

/-- A piece starts with a character that is not blank. -/
theorem Piece.Lies.starts (h : a.Lies 0 text) :
    ∃ c, text[a.span.start.toNat]? = some c ∧ Text.isBlank c = false := by
  rcases h with ⟨front, c, lexeme, behind, rfl, hblank, -, hstart, -⟩
  have hindex : a.span.start.toNat = front.length := by omega
  exact ⟨c, by simp [hindex], hblank⟩

/-- The pieces of a text cover it. -/
theorem covers_pieces (p : Profile) (index : LineIndex) (text : List Char) :
    Covers text (pieces p index none 0 text) where
  ordered := pieces_ordered
  inside a ha := by
    have hbounds := (pieces_lies ha).bounds
    simpa using hbounds
  lexeme_eq a ha := (pieces_lies ha).lexeme_eq
  starts a ha := (pieces_lies ha).starts
  blank_outside i c hi h := by
    have hout : ∀ a ∈ pieces p index none 0 text,
        ¬ (a.span.start ≤ ↑(0 + i) ∧ ↑(0 + i) < a.span.stop) := by
      rw [Nat.zero_add]
      exact h
    exact pieces_blank_outside i hi hout

end

/-! ## Diagnostics -/

/-- The code and the place of an error token. -/
def Token.error? (t : Token) : Option (DiagnosticCode × Span) :=
  match t.payload with
  | .error e => some (e.code, t.span)
  | _ => none

/-- The diagnostic of an error token has its code and its place. -/
theorem Token.map_diagnostic? (t : Token) :
    t.diagnostic?.map (fun d => (d.code, d.span)) = t.error? := by
  cases hpayload : t.payload <;>
    simp [Token.diagnostic?, Token.error?, hpayload, Diagnostic.report]

/-- An error token, and no other one, has a diagnostic. -/
theorem Token.exists_diagnostic_iff {t : Token} : (∃ d, t.diagnostic? = some d) ↔ t.isError = true := by
  unfold Token.diagnostic? Token.isError
  split <;> simp

/-- Tokens without a lexical diagnostic are no error tokens. -/
theorem isError_of_diagnostics {lexed : Lexed} (h : lexed.diagnostics = []) :
    ∀ t ∈ lexed.tokens, t.isError = false := by
  intro t ht
  have hnone := List.filterMap_eq_nil_iff.mp h t ht
  by_cases herror : t.isError = true
  · rcases Token.exists_diagnostic_iff.mpr herror with ⟨d, hd⟩
    simp [hnone] at hd
  · simpa using herror

/-- The token of a piece stands at its place. -/
theorem Piece.span_of_token {a : Piece} {t : Token} (h : a.token? = some t) : t.span = a.span := by
  unfold Piece.token? at h
  split at h
  · simp at h
  · rcases Option.some.inj h with rfl
    rfl

/-- The comment of a piece stands at its place. -/
theorem Piece.span_of_comment {a : Piece} {k : Comment} (h : a.comment? = some k) :
    k.span = a.span := by
  unfold Piece.comment? at h
  split at h
  · rcases Option.some.inj h with rfl
    rfl
  · simp at h

/-- The diagnostic of an error token stands at its place. -/
theorem Token.span_of_diagnostic {t : Token} {d : Diagnostic} (h : t.diagnostic? = some d) :
    d.span = t.span := by
  unfold Token.diagnostic? at h
  split at h
  · rcases Option.some.inj h with rfl
    rfl
  · simp at h

/-- The tokens of pieces that cover a text start one behind the other. -/
theorem Covers.pairwise_tokens {text : List Char} {ps : List Piece} (h : Covers text ps) :
    (ps.filterMap Piece.token?).Pairwise fun t t' => t.span.start < t'.span.start := by
  refine List.pairwise_filterMap.mpr (h.ordered.imp_of_mem ?_)
  intro a b ha hb hab t ht t' ht'
  have hinside := (h.inside a ha).2.1
  rw [Piece.span_of_token ht, Piece.span_of_token ht']
  omega

/-- The tokens of pieces that cover a text start inside it. -/
theorem Covers.start_lt {text : List Char} {ps : List Piece} (h : Covers text ps) {t : Token}
    (ht : t ∈ ps.filterMap Piece.token?) : t.span.start < text.length := by
  rcases List.mem_filterMap.mp ht with ⟨a, ha, htoken⟩
  have hinside := (h.inside a ha).2
  rw [Piece.span_of_token htoken]
  omega

/-- The diagnostics of pieces that lie one behind the other are in source order. -/
theorem Covers.diagnostics_ordered {text : List Char} {ps : List Piece} (h : Covers text ps) :
    ((ps.filterMap Piece.token?).filterMap Token.diagnostic?).Pairwise
      fun a b => a.before b = true := by
  refine List.pairwise_filterMap.mpr (h.pairwise_tokens.imp ?_)
  intro t t' hlt d hd d' hd'
  have hspan := Token.span_of_diagnostic hd
  have hspan' := Token.span_of_diagnostic hd'
  simp [Diagnostic.before, hspan, hspan', hlt]

/-! ## Lexing -/

/-- Lexing covers the text: its tokens and comments together are pieces that leave out blanks
only, the end stands behind the last character, and the diagnostics are those of the error tokens,
already in source order. -/
theorem lex_covers (p : Profile) (text : List Char) (placement : Placement) :
    (∃ ps, Covers text ps ∧ (lex p text placement).tokens = ps.filterMap Piece.token? ∧
      (lex p text placement).comments = ps.filterMap Piece.comment?) ∧
    (lex p text placement).stop.start = text.length ∧
    (lex p text placement).stop.stop = text.length ∧
    sortDiagnostics (lex p text placement).diagnostics = (lex p text placement).diagnostics ∧
    (lex p text placement).diagnostics.map (fun d => (d.code, d.span)) =
      (lex p text placement).tokens.filterMap Token.error? := by
  have hcovers := covers_pieces p (LineIndex.ofText text placement) text
  refine ⟨⟨_, hcovers, rfl, rfl⟩, rfl, rfl, ?_, ?_⟩
  · exact List.mergeSort_of_pairwise hcovers.diagnostics_ordered
  · rw [Lexed.diagnostics, List.map_filterMap]
    simp only [Token.map_diagnostic?]

end FormulaLint
