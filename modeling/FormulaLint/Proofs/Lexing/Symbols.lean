import FormulaLint.Proofs.Lexing.Names

/-!
# Reading operators and separators

Operators and separators are read as themselves where no longer token starts with them.  Between
blanks this is every binary operator; elsewhere it is said of each one what may follow.

Main results:

- Theorem {lit}`recognise_symbol`: where a symbol stands, nothing but a symbol is found.
- Theorem {lit}`Lexes.binaryOperator`: a binary operator with a blank behind it.
- Theorem {lit}`Lexes.listSeparator` and {lit}`Lexes.chainingSeparator`: those of a profile.
-/

namespace FormulaLint

/-- Whether a character starts a symbol, given the character behind it: no name, number, text,
comment or bracketed name starts there. -/
def startsSymbol (c : Char) (next : Option Char) : Bool :=
  !Text.isIdentifierStart c && !c.isDigit && c != '\'' && c != '"' &&
    !(c == '/' && (next == some '*' || next == some '/')) && !(c == '[' && next == some '@') &&
    !(c == '.' && next.any Char.isDigit)

section

variable {p : Profile} {c : Char} {rest : List Char}

/-- No comment starts where a symbol stands. -/
theorem comment?_eq_none (h : startsSymbol c rest.head? = true) : comment? c rest = none := by
  by_cases hslash : c = '/'
  · subst hslash
    cases rest with
    | nil => rfl
    | cons d rest =>
        simp only [startsSymbol, List.head?_cons] at h
        have hstar : d ≠ '*' := by
          rintro rfl
          simp at h
        have hdouble : d ≠ '/' := by
          rintro rfl
          simp at h
        simp [comment?, hstar, hdouble]
  · simp [comment?, hslash]

/-- No open comment starts where a symbol stands. -/
theorem unterminatedComment?_eq_none (h : startsSymbol c rest.head? = true) :
    unterminatedComment? c rest = none := by
  by_cases hcomment : c = '/' ∧ rest.head? = some '*'
  · rcases hcomment with ⟨rfl, hstar⟩
    simp [startsSymbol, hstar] at h
  · simp [unterminatedComment?, hcomment]

/-- No name starts where a symbol stands. -/
theorem name?_eq_none (h : startsSymbol c rest.head? = true) : name? (c :: rest) = none := by
  simp only [startsSymbol, Bool.and_eq_true, Bool.not_eq_true', bne_iff_ne] at h
  simp [name?, h]

/-- No bracketed name starts where a symbol stands. -/
theorem bracketName?_eq_none (h : startsSymbol c rest.head? = true) :
    bracketName? (c :: rest) = none := by
  unfold bracketName?
  split
  · rename_i heq
    have hcons := List.cons.inj heq
    rw [hcons.1, hcons.2] at h
    simp [startsSymbol] at h
  · rfl

/-- No number starts where a symbol stands. -/
theorem mantissaLength_eq_zero (h : startsSymbol c rest.head? = true) :
    mantissaLength p (c :: rest) = 0 := by
  have hdigit : c.isDigit = false := by
    simp only [startsSymbol, Bool.and_eq_true, Bool.not_eq_true'] at h
    exact h.1.1.1.1.1.2
  have hcount : digitCount (c :: rest) = 0 := by simp [digitCount, hdigit]
  have hfraction : c = '.' → digitCount rest = 0 := by
    rintro rfl
    cases rest with
    | nil => rfl
    | cons d rest =>
        by_cases hd : d.isDigit = true
        · simp [startsSymbol, hd] at h
        · simp [digitCount, hd]
  unfold mantissaLength
  simp only [hcount, List.drop_zero]
  cases p with
  | dotDecimal =>
      dsimp only
      split
      · rename_i heq
        have hcons := List.cons.inj heq
        rw [← hcons.2, hfraction hcons.1]
        rfl
      · rfl
  | commaDecimal =>
      dsimp only
      split <;> rfl

/-- Where a symbol stands, nothing but a symbol is found. -/
theorem recognise_symbol (h : startsSymbol c rest.head? = true) :
    recognise p c rest =
      ((operator? c rest).or (separator? p c rest)).getD (invalidRun rest) := by
  have hquote : c ≠ '\'' := by
    rintro rfl
    simp [startsSymbol] at h
  have htext : c ≠ '"' := by
    rintro rfl
    simp [startsSymbol] at h
  have hscoped : disambiguated? c rest = none := by
    simp only [disambiguated?, name?_eq_none h, bracketName?_eq_none h, Option.map_none]
  have hidentifier : identifier? c rest = none := by
    simp only [identifier?, name?_eq_none h, Option.map_none]
  have hnumber : number? p c rest = none := by
    simp only [number?, mantissaLength_eq_zero h]
  simp only [recognise, List.findSome?_cons, comment?_eq_none h, unterminatedComment?_eq_none h,
    textLiteral?, unterminated?, hquote, htext, hscoped, hidentifier, hnumber, ↓reduceIte]
  cases operator? c rest <;> cases separator? p c rest <;> rfl

/-! ## Symbols as tokens -/

variable {follow : Option Char → Prop} {text : List Char} {payloads : List Payload}

/-- A symbol that is found is read as itself. -/
theorem Lexes.symbol {cs : List Char} {payload : Payload}
    (hpayload : (∃ op, payload = .operator op) ∨ ∃ sep, payload = .separator sep)
    (hblank : Text.isBlank c = false)
    (hstarts : ∀ rest : List Char, follow rest.head? →
      startsSymbol c (cs ++ rest).head? = true)
    (hfound : ∀ rest : List Char, follow rest.head? →
      (operator? c (cs ++ rest)).or (separator? p c (cs ++ rest)) =
        some (.token payload cs.length)) :
    Lexes p follow (c :: cs) [payload] := by
  have hsettle : ∀ delimited, (Item.token payload).settle delimited = .token payload := by
    intro delimited
    rcases hpayload with ⟨op, rfl⟩ | ⟨sep, rfl⟩ <;> rfl
  have hclean : payload.isError = false := by
    rcases hpayload with ⟨op, rfl⟩ | ⟨sep, rfl⟩ <;> rfl
  apply Lexes.single payload hblank _ (fun _ _ _ => hsettle _) hclean
  intro rest hrest
  rw [recognise_symbol (hstarts rest hrest), hfound rest hrest]
  rfl

/-- An opening parenthesis. -/
theorem Lexes.openingParenthesis :
    Lexes p anything ['('] [.separator (.opening .parenthesis)] :=
  .symbol (Or.inr ⟨_, rfl⟩) rfl (fun _ _ => rfl) (fun _ _ => rfl)

/-- A closing parenthesis. -/
theorem Lexes.closingParenthesis :
    Lexes p anything [')'] [.separator (.closing .parenthesis)] :=
  .symbol (Or.inr ⟨_, rfl⟩) rfl (fun _ _ => rfl) (fun _ _ => rfl)

/-- An opening brace. -/
theorem Lexes.openingBrace : Lexes p anything ['\x7b'] [.separator (.opening .brace)] :=
  .symbol (Or.inr ⟨_, rfl⟩) rfl (fun _ _ => rfl) (fun _ _ => rfl)

/-- A closing brace. -/
theorem Lexes.closingBrace : Lexes p anything ['\x7d'] [.separator (.closing .brace)] :=
  .symbol (Or.inr ⟨_, rfl⟩) rfl (fun _ _ => rfl) (fun _ _ => rfl)

/-- A closing bracket. -/
theorem Lexes.closingBracket : Lexes p anything [']'] [.separator (.closing .bracket)] :=
  .symbol (Or.inr ⟨_, rfl⟩) rfl (fun _ _ => rfl) (fun _ _ => rfl)

/-- A colon. -/
theorem Lexes.colon : Lexes p anything [':'] [.separator .colon] :=
  .symbol (Or.inr ⟨_, rfl⟩) rfl (fun _ _ => rfl) (fun _ _ => rfl)

/-- An opening bracket that opens no bracketed name. -/
theorem Lexes.openingBracket :
    Lexes p (fun next => next ≠ some '@') ['['] [.separator (.opening .bracket)] := by
  apply Lexes.symbol (Or.inr ⟨_, rfl⟩) rfl
  · intro rest hrest
    have hstart : Text.isIdentifierStart '[' = false := by decide
    simp [startsSymbol, hstart, hrest]
  · intro rest _
    rfl

/-- A text with a blank and another text behind it. -/
theorem Lexes.spaced {front : List Char} {payloads₁ payloads₂ : List Payload}
    (h₁ : Lexes p (fun next => next = some ' ') front payloads₁)
    (h₂ : Lexes p follow text payloads₂) :
    Lexes p follow (front ++ ' ' :: text) (payloads₁ ++ payloads₂) :=
  h₁.append h₂.blank (not_ledByWord_cons (by decide) text) fun _ _ => rfl

/-- What is found in front of a blank. -/
theorem Lexes.symbol_blank {cs : List Char} {payload : Payload}
    (hpayload : (∃ op, payload = .operator op) ∨ ∃ sep, payload = .separator sep)
    (hblank : Text.isBlank c = false)
    (hstarts : ∀ rest : List Char, startsSymbol c (cs ++ ' ' :: rest).head? = true)
    (hfound : ∀ rest : List Char,
      (operator? c (cs ++ ' ' :: rest)).or (separator? p c (cs ++ ' ' :: rest)) =
        some (.token payload cs.length)) :
    Lexes p (fun next => next = some ' ') (c :: cs) [payload] := by
  have hcons : ∀ rest : List Char, rest.head? = some ' ' → ∃ behind, rest = ' ' :: behind := by
    intro rest hrest
    cases rest with
    | nil => simp at hrest
    | cons d behind => exact ⟨behind, by simpa using hrest⟩
  apply Lexes.symbol hpayload hblank
  · intro rest hrest
    rcases hcons rest hrest with ⟨behind, rfl⟩
    exact hstarts behind
  · intro rest hrest
    rcases hcons rest hrest with ⟨behind, rfl⟩
    exact hfound behind

/-- The separator between list items, with a blank behind it. -/
theorem Lexes.listSeparator :
    Lexes p (fun next => next = some ' ') p.listSeparator.toList [.separator .list] := by
  cases p with
  | dotDecimal => exact .symbol_blank (Or.inr ⟨_, rfl⟩) rfl (fun _ => rfl) (fun _ => rfl)
  | commaDecimal => exact .symbol_blank (Or.inr ⟨_, rfl⟩) rfl (fun _ => rfl) (fun _ => rfl)

/-- The separator between chained expressions, with a blank behind it. -/
theorem Lexes.chainingSeparator :
    Lexes p (fun next => next = some ' ') p.chainingSeparator.toList [.separator .chaining] := by
  cases p with
  | dotDecimal => exact .symbol_blank (Or.inr ⟨_, rfl⟩) rfl (fun _ => rfl) (fun _ => rfl)
  | commaDecimal => exact .symbol_blank (Or.inr ⟨_, rfl⟩) rfl (fun _ => rfl) (fun _ => rfl)

/-- A binary operator with a blank behind it. -/
theorem Lexes.binaryOperator {op : Operator} (hop : op.binding?.isSome = true)
    (h : Lexes p follow text payloads) :
    Lexes p follow (op.spelling.toList ++ ' ' :: text) (.operator op :: payloads) := by
  have hsymbol : ∀ c cs, op.spelling.toList = c :: cs → Text.isBlank c = false →
      (∀ rest : List Char, startsSymbol c (cs ++ ' ' :: rest).head? = true) →
      (∀ rest : List Char,
        (operator? c (cs ++ ' ' :: rest)).or (separator? p c (cs ++ ' ' :: rest)) =
          some (.token (.operator op) cs.length)) →
      Lexes p follow (op.spelling.toList ++ ' ' :: text) (.operator op :: payloads) := by
    intro c cs hspelling hblank hstarts hfound
    rw [hspelling]
    exact Lexes.spaced (.symbol_blank (Or.inl ⟨op, rfl⟩) hblank hstarts hfound) h
  cases op with
  | orWord | andWord | membership | exactMembership => exact Lexes.word rfl h
  | notSign | notWord | percent | dot | unknown _ => simp [Operator.binding?] at hop
  | orSign | andSign | equal | notEqual | less | lessEqual | greater | greaterEqual | concatenate
  | plus | minus | times | divide | power =>
      exact hsymbol _ _ rfl rfl (fun _ => rfl) (fun _ => rfl)

/-- A minus sign in front of its operand. -/
theorem Lexes.minus : Lexes p anything ['-'] [.operator .minus] :=
  .symbol (Or.inl ⟨_, rfl⟩) rfl (fun _ _ => rfl) (fun _ _ => rfl)

/-- An exclamation mark, in front of an operand or of the name of a member. -/
theorem Lexes.notSign : Lexes p anything ['!'] [.operator .notSign] :=
  .symbol (Or.inl ⟨_, rfl⟩) rfl (fun _ _ => rfl) (fun _ _ => rfl)

/-- A percent sign. -/
theorem Lexes.percent : Lexes p anything ['%'] [.operator .percent] :=
  .symbol (Or.inl ⟨_, rfl⟩) rfl (fun _ _ => rfl) (fun _ _ => rfl)

/-- A point in front of a name. -/
theorem Lexes.point :
    Lexes p (fun next => next.any Char.isDigit = false) ['.'] [.operator .dot] := by
  apply Lexes.symbol (Or.inl ⟨_, rfl⟩) rfl
  · intro rest hrest
    have hstart : Text.isIdentifierStart '.' = false := by decide
    simp [startsSymbol, hstart, hrest]
  · intro rest _
    rfl

end

end FormulaLint
