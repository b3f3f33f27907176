import FormulaLint.Proofs.Lexing.Names

/-!
# What is written is one token

What is written for a name, between quotes or without them, is one token that stands for that name,
and what is written for a text is one token that stands for that text.  Nothing is left over: there
is no second token, no comment and no diagnostic, whatever characters the name or the text holds.

Main results:

- Theorem {lit}`lex_of_recognise`: a text that is recognised as a whole is one token.
- Theorem {lit}`recognise_nameText`: a written name is recognised as a whole.
- Theorem {lit}`lex_written`: names and texts are read back as one token each.
-/

namespace FormulaLint

/-- The outcome of lexing a text that is one token as a whole. -/
def Lexed.single (payload : Payload) (text : List Char) (placement : Placement) : Lexed :=
  let index := LineIndex.ofText text placement
  ⟨[⟨payload, String.ofList text, index.span 0 text.length⟩], [], index.span text.length text.length⟩

/-- One token without an error has no diagnostics. -/
theorem Lexed.diagnostics_single {payload : Payload} (h : payload.isError = false)
    (text : List Char) (placement : Placement) :
    (Lexed.single payload text placement).diagnostics = [] := by
  cases payload with
  | error _ => simp [Payload.isError] at h
  | _ => rfl

section

variable {p : Profile}

/-- A text that is recognised as a whole is one token.  There is nothing around it, so a word in it
counts as one between blanks. -/
theorem lex_of_recognise {c : Char} {cs : List Char} {raw payload : Payload}
    (hblank : Text.isBlank c = false) (hfound : recognise p c cs = ⟨.token raw, cs.length⟩)
    (hsettle : (Item.token raw).settle true = .token payload) (placement : Placement) :
    lex p (c :: cs) placement = Lexed.single payload (c :: cs) placement := by
  have hpieces : pieces p (LineIndex.ofText (c :: cs) placement) none 0 (c :: cs) =
      [⟨.token payload, String.ofList (c :: cs),
        (LineIndex.ofText (c :: cs) placement).span 0 (c :: cs).length⟩] := by
    have hfound : recognise p c (cs ++ []) = ⟨.token raw, cs.length⟩ := by
      rw [List.append_nil]
      exact hfound
    have hends : (blankOrEnd none && blankOrEnd ([] : List Char).head?) = true := rfl
    rw [← List.append_nil cs, pieces_found hblank hfound 0, pieces_nil, List.append_nil, hends,
      hsettle, Nat.zero_add, List.length_cons]
    rfl
  rw [lex, hpieces]
  rfl

/-- A written name is recognised as a whole, and not as the scope of another one. -/
theorem recognise_nameText {name : String} {c : Char} {cs : List Char}
    (htext : nameText name = c :: cs) (hc : c = '\'' ∨ Text.isIdentifierStart c = true) :
    recognise p c cs = ⟨.token (.identifier name (needsQuotes name)), cs.length⟩ := by
  have hends : EndsWord ([] : List Char).head? := by simp [EndsWord]
  have hname := name?_nameText name hends
  rw [htext, List.cons_append, List.length_cons] at hname
  have hfound := recognise_name (p := p) hc hname (by simp)
  rwa [List.append_nil] at hfound

/-- A name that is written without quotes is no word for anything else. -/
theorem settle_identifier (name : String) (delimited : Bool) :
    (Item.token (.identifier name (needsQuotes name))).settle delimited =
      .token (.identifier name (needsQuotes name)) := by
  cases hquotes : needsQuotes name with
  | true => rfl
  | false =>
      exact congrArg Item.token
        (wordPayload_of_not_reserved (not_reserved_of_not_needsQuotes hquotes) delimited)

/-- A written name is one token. -/
theorem lex_nameText (name : String) (placement : Placement) :
    lex p (nameText name) placement =
      Lexed.single (.identifier name (needsQuotes name)) (nameText name) placement := by
  rcases nameText_eq_cons name with ⟨c, cs, htext, hc⟩
  rw [htext]
  exact lex_of_recognise (not_blank_of_start hc) (recognise_nameText htext hc)
    (settle_identifier name true) placement

/-- A written text is one token. -/
theorem lex_quotedText (value : String) (placement : Placement) :
    lex p (quotedText value) placement =
      Lexed.single (.text value) (quotedText value) placement := by
  have hfound : recognise p '"' (Text.double '"' value.toList ++ ['"']) =
      ⟨.token (.text value), (Text.double '"' value.toList ++ ['"']).length⟩ := by
    have hanywhere := @recognise_quotedText p [] value (by simp)
    rwa [List.append_nil] at hanywhere
  have hsettle : (Item.token (.text value)).settle true = .token (.text value) := rfl
  exact lex_of_recognise (by decide) hfound hsettle placement

end

/-- Writing is undone by lexing, for every profile and wherever the text stands.  What is written for
a name, of whatever characters, is one token for this name, and what is written for a text is one
token for this text; each takes up the whole of what is written, and there are no comments and no
diagnostics. -/
theorem lex_written (p : Profile) (placement : Placement) :
    (∀ name : String,
      lex p (nameText name) placement =
          Lexed.single (.identifier name (needsQuotes name)) (nameText name) placement ∧
        (lex p (nameText name) placement).diagnostics = []) ∧
      ∀ value : String,
        lex p (quotedText value) placement =
            Lexed.single (.text value) (quotedText value) placement ∧
          (lex p (quotedText value) placement).diagnostics = [] := by
  refine ⟨fun name => ⟨lex_nameText name placement, ?_⟩,
    fun value => ⟨lex_quotedText value placement, ?_⟩⟩
  · rw [lex_nameText]
    exact Lexed.diagnostics_single rfl _ placement
  · rw [lex_quotedText]
    exact Lexed.diagnostics_single rfl _ placement

/-- A name of quotes and a line feed, and a word for an operator, which alone is written between
quotes although it is a name by its characters. -/
example : String.ofList (nameText "'\n'") = "'''\n'''" ∧ String.ofList (nameText "And") = "'And'" ∧
    (lex .commaDecimal (nameText "And") {}).tokens.map Token.payload = [.identifier "And" true] := by
  decide +kernel

end FormulaLint
