import FormulaLint.Proofs.Lexing.Numbers

/-!
# Where tokens end

Texts and quoted names are looked for to the end of a formula, numbers a few characters ahead.
They end at the same place when another text stands behind them, provided that the other text
agrees with the first one up to its own first blank.  A quote must not be closed in it that was not
closed before.

Main results:

- Theorem {lit}`closing_append`: where a text between quotes ends.
- Theorem {lit}`name?_append` and {lit}`bracketName?_append`: where names end.
- Theorem {lit}`number?_agrees`: where a number ends.
- Theorem {lit}`symbol?_agrees`: where an operator or a separator ends.
-/

namespace FormulaLint

/-! ## Texts behind a token -/

/-- The second text agrees with the first one up to its own first blank. -/
inductive Agrees : List Char → List Char → Prop
  | nil (behind : List Char) : Agrees behind []
  | blank {c : Char} (hblank : Text.isBlank c = true) (behind rest : List Char) :
      Agrees behind (c :: rest)
  | cons (c : Char) {behind rest : List Char} (h : Agrees behind rest) :
      Agrees (c :: behind) (c :: rest)

section

variable {behind behind' cs : List Char}

/-- A text with a blank and more text behind it agrees with it. -/
theorem Agrees.append_blank {w : Char} (hw : Text.isBlank w = true) (behind rest : List Char) :
    Agrees behind (behind ++ w :: rest) := by
  induction behind with
  | nil => exact .blank hw [] rest
  | cons c behind ih => exact .cons c ih

/-- The next character is the same one, or there is a blank or nothing. -/
theorem Agrees.head (h : Agrees behind behind') :
    behind'.head? = behind.head? ∨ blankOrEnd behind'.head? = true := by
  cases h with
  | nil => exact Or.inr rfl
  | blank hblank => exact Or.inr hblank
  | cons c h => exact Or.inl rfl

/-- A next character that is not blank is the same one. -/
theorem Agrees.head_eq {c : Char} (h : Agrees behind behind') (hblank : Text.isBlank c = false)
    (hc : behind'.head? = some c) : behind.head? = some c := by
  rcases h.head with hsame | hend
  · rw [← hsame, hc]
  · simp [hc, blankOrEnd, hblank] at hend

/-- A run of characters none of which is blank ends where it ended. -/
theorem takeWhile_agrees {accepts : Char → Bool}
    (haccepts : ∀ c, Text.isBlank c = true → accepts c = false)
    (hhead : behind'.head? = behind.head? ∨ blankOrEnd behind'.head? = true)
    (hle : ((cs ++ behind).takeWhile accepts).length ≤ cs.length) :
    (cs ++ behind').takeWhile accepts = (cs ++ behind).takeWhile accepts := by
  induction cs with
  | nil =>
      have hempty : behind.takeWhile accepts = [] := List.length_eq_zero_iff.mp (by simpa using hle)
      have hstop : ∀ c, behind'.head? = some c → accepts c = false := by
        intro c hc
        rcases hhead with hsame | hend
        · cases behind with
          | nil => simp [hc] at hsame
          | cons d rest =>
              have hcd : c = d := by simpa [hc] using hsame
              subst hcd
              by_cases haccept : accepts c = true
              · simp [haccept] at hempty
              · simpa using haccept
        · rw [hc] at hend
          exact haccepts c hend
      have hempty' : ([] ++ behind').takeWhile accepts = [] := takeWhile_append_of_stop rfl hstop
      rw [hempty', List.nil_append, hempty]
  | cons d cs ih =>
      by_cases haccept : accepts d = true
      · simp only [List.cons_append, List.takeWhile_cons, haccept, ↓reduceIte, List.length_cons,
          Nat.add_le_add_iff_right] at hle ⊢
        rw [ih hle]
      · simp [haccept]

/-! ## Quoted texts and names -/

/-- A text is closed by every quote that is still to come. -/
theorem closing_eq_none_iff {quote : Char} {cs : List Char} :
    Text.closing quote cs = none ↔ quote ∉ cs := by
  induction cs with
  | nil => simp [Text.closing]
  | cons c rest ih =>
      by_cases hc : c = quote
      · subst hc
        cases rest with
        | nil => simp [Text.closing]
        | cons d rest =>
            simp only [Text.closing, ↓reduceIte]
            repeat' split
            all_goals simp
      · rw [Text.closing_cons_of_ne hc, Option.map_eq_none_iff, ih]
        simp [Ne.symm hc]

/-- At least the quote is read of a text that is closed. -/
theorem closing_pos {quote : Char} {cs content : List Char} {n : Nat}
    (h : Text.closing quote cs = some (content, n)) : 0 < n := by
  fun_induction Text.closing quote cs generalizing content n <;> simp_all <;> omega

/-- A quote closes a text at once, unless it is the first one of two in a text that is closed
later. -/
theorem closing_quote_iff {quote : Char} {content : List Char} :
    Text.closing quote (quote :: behind) = some (content, 1) ↔
      content = [] ∧ (behind.head? = some quote → Text.closing quote behind.tail = none) := by
  by_cases hnext : behind.head? = some quote
  · cases behind with
    | nil => simp at hnext
    | cons next rest =>
        have hquote : next = quote := by simpa using hnext
        subst hquote
        cases hrest : Text.closing next rest with
        | none => simp [Text.closing, hrest, eq_comm]
        | some read => simp [Text.closing, hrest]
  · simp [Text.closing_quote_of_head_ne hnext, hnext, eq_comm]

/-- A text that is closed by its last character stays so, unless a quote follows that opens a
longer text now. -/
theorem closing_append {quote : Char} (hquote : Text.isBlank quote = false)
    (hhead : behind'.head? = behind.head? ∨ blankOrEnd behind'.head? = true)
    (hclosing : behind'.head? = some quote → Text.closing quote behind.tail = none →
      Text.closing quote behind'.tail = none) :
    ∀ {cs content : List Char}, Text.closing quote (cs ++ behind) = some (content, cs.length) →
      Text.closing quote (cs ++ behind') = some (content, cs.length)
  | [], _, h => absurd (closing_pos h) (by simp)
  | [c], content, h => by
    rw [List.singleton_append] at h ⊢
    by_cases hc : c = quote
    · subst hc
      have hsplit := closing_quote_iff.mp h
      refine closing_quote_iff.mpr ⟨hsplit.1, fun hnext => hclosing hnext (hsplit.2 ?_)⟩
      rcases hhead with hsame | hend
      · rw [← hsame, hnext]
      · simp [hnext, blankOrEnd, hquote] at hend
    · rw [Text.closing_cons_of_ne hc] at h
      rcases Option.map_eq_some_iff.mp h with ⟨read, hread, heq⟩
      have hpos := closing_pos hread
      have hcount : read.2 + 1 = 1 := congrArg Prod.snd heq
      omega
  | c :: d :: cs, content, h => by
    by_cases hc : c = quote
    · subst hc
      by_cases hd : d = c
      · subst hd
        simp only [List.cons_append, Text.closing, ↓reduceIte] at h ⊢
        cases hread : Text.closing d (cs ++ behind) with
        | none => simp [hread] at h
        | some read =>
            rw [hread] at h
            simp only [Option.some.injEq, Prod.mk.injEq, List.length_cons,
              Nat.add_right_cancel_iff] at h
            have hread' : Text.closing d (cs ++ behind) = some (read.1, cs.length) := by
              rw [hread, ← h.2]
            rw [closing_append hquote hhead hclosing hread']
            simp [← h.1]
      · have hone : Text.closing c (c :: d :: (cs ++ behind)) = some ([], 1) :=
          Text.closing_quote_of_head_ne (by simpa using hd)
        rw [List.cons_append, List.cons_append, hone] at h
        simp at h
    · rw [List.cons_append, Text.closing_cons_of_ne hc] at h ⊢
      rcases Option.map_eq_some_iff.mp h with ⟨read, hread, heq⟩
      simp only [Prod.mk.injEq, List.length_cons, Nat.add_right_cancel_iff] at heq
      have hread' : Text.closing quote (d :: cs ++ behind) = some (read.1, (d :: cs).length) := by
        rw [hread, List.length_cons, ← heq.2]
      rw [closing_append hquote hhead hclosing hread', Option.map_some, ← heq.1]
      rfl

/-! ## Names -/

/-- No blank continues a name. -/
theorem continuesName_of_isBlank {c : Char} (h : Text.isBlank c = true) :
    continuesName c = false := by
  have hapart : ∀ blanks ∈ blankRanges, ∀ range ∈ Text.identifierPartRanges,
      range.2 < blanks.1 ∨ blanks.2 < range.1 := by decide +kernel
  by_cases hname : continuesName c = true
  · rcases Bool.or_eq_true_iff.mp hname with hpart | hmark
    · rcases exists_of_isBlank h with ⟨blanks, hblanks, hlow, hhigh⟩
      rcases Text.CharRanges.exists_of_contains hpart with ⟨range, hrange, hlow', hhigh'⟩
      have hdisjoint := hapart blanks hblanks range hrange
      omega
    · have hmem := List.contains_iff_mem.mp hmark
      simp only [List.mem_cons, List.not_mem_nil, or_false] at hmem
      rcases hmem with rfl | rfl | rfl | rfl | rfl | rfl | rfl | rfl <;>
        exact absurd h (by decide)
  · simpa using hname

/-- A quoted name. -/
theorem name?_of_closing {text content : List Char} {n : Nat}
    (h : Text.closing '\'' text = some (content, n)) :
    name? ('\'' :: text) = some ⟨String.ofList content, true, n + 1⟩ := by
  simp [name?, h]

/-- A name that ends a text stays one. -/
theorem name?_append {c : Char} {m : NameMatch} (cs behind behind' : List Char)
    (hhead : behind'.head? = behind.head? ∨ blankOrEnd behind'.head? = true)
    (hclosing : behind'.head? = some '\'' → Text.closing '\'' behind.tail = none →
      Text.closing '\'' behind'.tail = none)
    (hlength : m.length = cs.length + 1) (h : name? (c :: (cs ++ behind)) = some m) :
    name? (c :: (cs ++ behind')) = some m := by
  rw [name?] at h ⊢
  split at h
  · rename_i hquote
    rcases Option.map_eq_some_iff.mp h with ⟨⟨content, n⟩, hread, rfl⟩
    have hcount : n = cs.length := by simpa using hlength
    subst hcount
    rw [if_pos hquote, closing_append (by decide) hhead hclosing hread]
    rfl
  · rename_i hquote
    split at h
    · rename_i hstart
      rcases Option.some.inj h with rfl
      have hle : ((cs ++ behind).takeWhile continuesName).length ≤ cs.length := by
        simpa using Nat.le_of_eq hlength
      simp only [hquote, hstart, ↓reduceIte,
        takeWhile_agrees (fun _ => continuesName_of_isBlank) hhead hle]
    · simp at h

/-- A name takes no more characters than there are. -/
theorem name?_length_le {text : List Char} {m : NameMatch} (h : name? text = some m) :
    0 < m.length ∧ m.length ≤ text.length := by
  cases text with
  | nil => simp [name?] at h
  | cons c rest =>
      rw [name?] at h
      split at h
      · rcases Option.map_eq_some_iff.mp h with ⟨read, hread, rfl⟩
        have hle := extra_closing_le hread
        exact ⟨Nat.succ_pos _, Nat.succ_le_succ hle⟩
      · split at h
        · rcases Option.some.inj h with rfl
          exact ⟨Nat.succ_pos _, Nat.succ_le_succ (List.takeWhile_prefix _).length_le⟩
        · simp at h

/-- A name starts with a quote or with a character that starts names. -/
theorem start_of_name? {c : Char} {rest : List Char} {m : NameMatch}
    (h : name? (c :: rest) = some m) : c = '\'' ∨ Text.isIdentifierStart c = true := by
  rw [name?] at h
  split at h
  · exact Or.inl ‹_›
  · split at h
    · exact Or.inr ‹_›
    · simp at h

/-- Behind its first character a plain name holds characters that continue names. -/
theorem continuesName_of_name? {c : Char} {m : NameMatch} (hquote : c ≠ '\'')
    (h : name? (c :: (cs ++ behind)) = some m) (hlength : m.length = cs.length + 1) :
    ∀ d ∈ cs, continuesName d = true := by
  rw [name?, if_neg hquote] at h
  split at h
  · rcases Option.some.inj h with rfl
    have hcount : ((cs ++ behind).takeWhile continuesName).length = cs.length := by
      simpa using hlength
    have hsplit : (cs ++ behind).takeWhile continuesName ++ (cs ++ behind).dropWhile continuesName =
        cs ++ behind := List.takeWhile_append_dropWhile
    have hsame := (List.append_inj hsplit hcount).1
    rw [← hsame]
    exact List.all_eq_true.mp List.all_takeWhile
  · simp at h

/-- A name between its brackets. -/
theorem bracketName?_of_name? {c : Char} {front rest : List Char} {m : NameMatch}
    (hname : name? (c :: (front ++ ']' :: rest)) = some m) (hlength : m.length = front.length + 1) :
    bracketName? ('[' :: '@' :: c :: (front ++ ']' :: rest)) = some (m.name, front.length + 4) := by
  simp [bracketName?, hname, hlength]

/-- A bracketed name is a name between its brackets. -/
theorem exists_of_bracketName? {text : List Char} {name : String} {n : Nat}
    (h : bracketName? text = some (name, n)) :
    ∃ c front rest m, text = '[' :: '@' :: c :: (front ++ ']' :: rest) ∧
      name? (c :: (front ++ ']' :: rest)) = some m ∧ m.length = front.length + 1 ∧
      m.name = name ∧ n = front.length + 4 := by
  unfold bracketName? at h
  split at h
  · rename_i inside
    split at h
    · rename_i m hname
      split at h
      · rename_i hbracket
        have hlength := name?_length_le hname
        have hread := Option.some.inj h
        cases inside with
        | nil => simp [name?] at hname
        | cons c inside =>
            have hhead : (inside.drop (m.length - 1)).head? = some ']' := by
              rw [← hbracket, ← List.drop_succ_cons (a := c), Nat.sub_add_cancel hlength.1]
            rcases List.head?_eq_some_iff.mp hhead with ⟨rest, hrest⟩
            have hinside : inside = inside.take (m.length - 1) ++ ']' :: rest := by
              rw [← hrest, List.take_append_drop]
            have hfront : (inside.take (m.length - 1)).length + 1 = m.length := by
              simp only [List.length_take, List.length_cons] at hlength ⊢
              omega
            have hcount : m.length + 3 = n := congrArg Prod.snd hread
            refine ⟨c, inside.take (m.length - 1), rest, m, ?_, ?_, hfront.symm,
              congrArg Prod.fst hread, ?_⟩
            · rw [← hinside]
            · rw [← hinside, hname]
            · omega
      · simp at h
    · simp at h
  · simp at h

/-- A bracketed name takes no more characters than there are. -/
theorem bracketName?_length_le {text : List Char} {read : String × Nat}
    (h : bracketName? text = some read) : read.2 ≤ text.length := by
  rcases exists_of_bracketName? h with ⟨c, front, rest, m, rfl, -, -, -, hcount⟩
  simp only [hcount, List.length_cons, List.length_append]
  omega

/-- A bracketed name is found whatever stands behind it. -/
theorem bracketName?_append {name : String}
    (h : bracketName? (cs ++ behind) = some (name, cs.length)) :
    bracketName? (cs ++ behind') = some (name, cs.length) := by
  rcases exists_of_bracketName? h with ⟨c, front, rest, m, htext, hname, hlength, rfl, hcount⟩
  have hsplit : cs = '[' :: '@' :: c :: (front ++ [']']) ∧ behind = rest := by
    apply List.append_inj
    · simpa using htext
    · simpa using hcount
  rcases hsplit with ⟨rfl, rfl⟩
  have hname' : name? (c :: (front ++ ']' :: behind')) = some m :=
    name?_append front (']' :: behind) (']' :: behind') (Or.inl rfl) (by simp) hlength hname
  have hbracket := bracketName?_of_name? hname' hlength
  simpa using hbracket

/-! ## Numbers -/

/-- Digits end where they ended. -/
theorem digitCount_agrees (h : Agrees behind behind')
    (hle : digitCount (cs ++ behind) ≤ cs.length) :
    digitCount (cs ++ behind') = digitCount (cs ++ behind) := by
  have hdigit : ∀ c, Text.isBlank c = true → c.isDigit = false := by
    intro c hc
    by_cases hd : c.isDigit = true
    · rw [not_blank_of_isDigit hd] at hc
      exact absurd hc (by decide)
    · simpa using hd
  exact congrArg List.length (takeWhile_agrees hdigit h.head hle)

/-- Behind its mark and one more character, an exponent ends where it ended. -/
theorem exponentLength_cons_agrees {mark d : Char} (cs : List Char)
    (hmark : mark = 'e' ∨ mark = 'E') (h : Agrees behind behind')
    (hle : exponentLength (mark :: d :: (cs ++ behind)) ≤ cs.length + 2) :
    exponentLength (mark :: d :: (cs ++ behind')) =
      exponentLength (mark :: d :: (cs ++ behind)) := by
  by_cases hsign : d = '+' ∨ d = '-'
  · rw [exponentLength_sign hmark hsign] at hle
    have hcount : digitCount (cs ++ behind) ≤ cs.length := by
      split at hle <;> omega
    rw [exponentLength_sign hmark hsign, exponentLength_sign hmark hsign,
      digitCount_agrees h hcount]
  · have hplain : ∀ rest : List Char, ∀ sign, (d :: rest).head? = some sign →
        sign ≠ '+' ∧ sign ≠ '-' := by
      intro rest sign hhead
      rcases Option.some.inj hhead with rfl
      exact not_or.mp hsign
    rw [exponentLength_plain hmark (hplain _)] at hle
    have hcount : digitCount (d :: cs ++ behind) ≤ (d :: cs).length := by
      simp only [List.cons_append, List.length_cons]
      split at hle <;> omega
    have hsame := digitCount_agrees h hcount
    rw [List.cons_append, List.cons_append] at hsame
    rw [exponentLength_plain hmark (hplain _), exponentLength_plain hmark (hplain _), hsame]

/-- A mark alone is no exponent. -/
theorem exponentLength_eq_zero_of_le {mark : Char} {rest : List Char}
    (hle : exponentLength (mark :: rest) ≤ 1) : exponentLength (mark :: rest) = 0 := by
  by_cases hmark : mark = 'e' ∨ mark = 'E'
  · rcases exponentLength_cons hmark rest with ⟨sign, -, hlength⟩
    rw [hlength] at hle ⊢
    split at hle
    · rename_i hcount
      exact if_pos hcount
    · omega
  · simp [exponentLength, hmark]

/-- No exponent goes on at a blank. -/
theorem exponentLength_of_blankOrEnd (rest : List Char) (h : blankOrEnd rest.head? = true) :
    exponentLength rest = 0 ∧ ∀ mark, exponentLength (mark :: rest) = 0 := by
  cases rest with
  | nil => exact ⟨rfl, fun mark => by simp [exponentLength, digitCount]⟩
  | cons c rest =>
      have hblank : Text.isBlank c = true := h
      have hne : ∀ d, Text.isBlank d = false → c ≠ d := by
        rintro d hd rfl
        simp [hblank] at hd
      have hcount : digitCount (c :: rest) = 0 := by
        have hdigit : c.isDigit = false := by
          by_cases hd : c.isDigit = true
          · simp [not_blank_of_isDigit hd] at hblank
          · simpa using hd
        simp [digitCount, hdigit]
      constructor
      · simp [exponentLength, hne 'e' (by decide), hne 'E' (by decide)]
      · intro mark
        by_cases hmark : mark = 'e' ∨ mark = 'E'
        · rw [exponentLength_plain hmark, if_pos hcount]
          intro sign hsign
          rcases Option.some.inj hsign with rfl
          exact ⟨hne '+' (by decide), hne '-' (by decide)⟩
        · simp [exponentLength, hmark]

/-- A mark that is no exponent with the text behind it stays none. -/
theorem exponentLength_mark_agrees (mark : Char) (h : Agrees behind behind')
    (hle : exponentLength (mark :: behind) ≤ 1) :
    exponentLength (mark :: behind') = exponentLength (mark :: behind) := by
  have hzero := exponentLength_eq_zero_of_le hle
  cases h with
  | nil => rw [hzero, (exponentLength_of_blankOrEnd [] rfl).2 mark]
  | blank hblank => rw [hzero, (exponentLength_of_blankOrEnd (_ :: _) hblank).2 mark]
  | cons d h =>
      by_cases hmark : mark = 'e' ∨ mark = 'E'
      · exact exponentLength_cons_agrees [] hmark h (Nat.le_succ_of_le hle)
      · simp [exponentLength, hmark]

/-- An exponent ends where it ended. -/
theorem exponentLength_agrees (cs : List Char) (h : Agrees behind behind')
    (hle : exponentLength (cs ++ behind) ≤ cs.length) :
    exponentLength (cs ++ behind') = exponentLength (cs ++ behind) := by
  match cs with
  | mark :: d :: cs =>
      by_cases hmark : mark = 'e' ∨ mark = 'E'
      · exact exponentLength_cons_agrees cs hmark h hle
      · simp [exponentLength, hmark]
  | [mark] => exact exponentLength_mark_agrees mark h hle
  | [] =>
      have hzero : exponentLength behind = 0 := Nat.le_zero.mp hle
      cases h with
      | nil => exact hzero.symm
      | blank hblank => exact (exponentLength_of_blankOrEnd (_ :: _) hblank).1.trans hzero.symm
      | cons mark h => exact exponentLength_mark_agrees mark h (by omega)

/-- A fraction is no shorter than the digits in front of it. -/
theorem le_fractionLength (p : Profile) (whole fraction : Nat) :
    whole ≤ fractionLength p whole fraction := by
  cases p <;> simp only [fractionLength] <;> split <;> omega

/-- A mantissa is no shorter than its first digits. -/
theorem digitCount_le_mantissaLength (p : Profile) (text : List Char) :
    digitCount text ≤ mantissaLength p text := by
  by_cases hpoint : (text.drop (digitCount text)).head? = some p.decimalChar
  · rcases List.head?_eq_some_iff.mp hpoint with ⟨rest, hrest⟩
    rw [mantissaLength_point hrest]
    exact le_fractionLength p _ _
  · exact Nat.le_of_eq (mantissaLength_no_point hpoint).symm

/-- The digits behind a decimal separator end where they ended. -/
theorem fractionLength_agrees {p : Profile} {whole : Nat} (cs : List Char) (h : Agrees behind behind')
    (hle : fractionLength p whole (digitCount (cs ++ behind)) ≤ whole + 1 + cs.length) :
    fractionLength p whole (digitCount (cs ++ behind')) =
      fractionLength p whole (digitCount (cs ++ behind)) := by
  by_cases hcount : digitCount (cs ++ behind) ≤ cs.length
  · rw [digitCount_agrees h hcount]
  · cases p with
    | dotDecimal =>
        simp only [fractionLength] at hle
        split at hle <;> omega
    | commaDecimal =>
        by_cases hwhole : whole = 0
        · simp [fractionLength, hwhole]
        · simp only [fractionLength] at hle
          split at hle <;> omega

/-- A mantissa without a decimal separator gets none. -/
theorem mantissaLength_whole_agrees {p : Profile} (h : Agrees behind behind')
    (hcount : digitCount (cs ++ behind) = cs.length)
    (hle : mantissaLength p (cs ++ behind) ≤ cs.length) :
    mantissaLength p (cs ++ behind') = cs.length ∧ mantissaLength p (cs ++ behind) = cs.length := by
  have hcount' : digitCount (cs ++ behind') = cs.length := by
    rw [digitCount_agrees h (Nat.le_of_eq hcount), hcount]
  have hdrop : ∀ rest : List Char, digitCount (cs ++ rest) = cs.length →
      (cs ++ rest).drop (digitCount (cs ++ rest)) = rest := by
    intro rest hrest
    rw [hrest, List.drop_left]
  have hsame : mantissaLength p (cs ++ behind) = cs.length :=
    Nat.le_antisymm hle (hcount ▸ digitCount_le_mantissaLength p (cs ++ behind))
  refine ⟨?_, hsame⟩
  by_cases hpoint : behind'.head? = some p.decimalChar
  · cases h with
    | nil => simp at hpoint
    | @blank c hblank _ rest =>
        have hc : c = p.decimalChar := by simpa using hpoint
        subst hc
        cases p <;> simp [Profile.decimalChar, Text.isBlank] at hblank
    | @cons c rest rest' h =>
        have hc : c = p.decimalChar := by simpa using hpoint
        subst hc
        rw [mantissaLength_point (hdrop _ hcount), hcount] at hsame
        rw [mantissaLength_point (hdrop _ hcount'), hcount']
        have hfraction := fractionLength_agrees [] h
          (Nat.le_trans (Nat.le_of_eq hsame) (Nat.le_succ cs.length))
        exact hfraction.trans hsame
  · rw [mantissaLength_no_point, hcount']
    rwa [hdrop _ hcount']

/-- The digits and the fraction of a number end where they ended. -/
theorem mantissaLength_agrees {p : Profile} (h : Agrees behind behind')
    (hle : mantissaLength p (cs ++ behind) ≤ cs.length) :
    mantissaLength p (cs ++ behind') = mantissaLength p (cs ++ behind) := by
  have hwhole := Nat.le_trans (digitCount_le_mantissaLength p _) hle
  have hcount := digitCount_agrees h hwhole
  have hdrop : ∀ rest : List Char, (cs ++ rest).drop (digitCount (cs ++ behind)) =
      cs.drop (digitCount (cs ++ behind)) ++ rest :=
    fun rest => List.drop_append_of_le_length hwhole
  cases hinside : cs.drop (digitCount (cs ++ behind)) with
  | nil =>
      have hlength : digitCount (cs ++ behind) = cs.length :=
        Nat.le_antisymm hwhole (List.drop_eq_nil_iff.mp hinside)
      have hsame := mantissaLength_whole_agrees h hlength hle
      rw [hsame.1, hsame.2]
  | cons d front =>
      have hlength : cs.length = digitCount (cs ++ behind) + 1 + front.length := by
        have hfront := congrArg List.length hinside
        simp only [List.length_drop, List.length_cons] at hfront
        omega
      rw [hinside] at hdrop
      by_cases hd : d = p.decimalChar
      · subst hd
        have hpoint := mantissaLength_point (hdrop behind)
        have hpoint' := mantissaLength_point (hcount ▸ hdrop behind')
        rw [hpoint, hlength] at hle
        rw [hpoint, hpoint', hcount]
        exact fractionLength_agrees front h hle
      · have hother : ∀ rest : List Char,
            ((cs ++ rest).drop (digitCount (cs ++ behind))).head? ≠ some p.decimalChar := by
          intro rest
          rw [hdrop rest]
          simpa using hd
        rw [mantissaLength_no_point (hother behind),
          mantissaLength_no_point (hcount ▸ hother behind'), hcount]

/-- A number is as long as its mantissa and its exponent together. -/
theorem number?_eq_some_iff {p : Profile} {c : Char} {rest : List Char} {item : Item} {n : Nat} :
    number? p c rest = some ⟨item, n⟩ ↔
      mantissaLength p (c :: rest) ≠ 0 ∧
      n + 1 = mantissaLength p (c :: rest) +
        exponentLength ((c :: rest).drop (mantissaLength p (c :: rest))) ∧
      item = .token (.number (String.ofList
        (((c :: rest).take (n + 1)).map fun d => if d = ',' then '.' else d))) := by
  cases hlength : mantissaLength p (c :: rest) with
  | zero => simp [number?, hlength]
  | succ k =>
      simp only [number?, hlength, Match.token, Option.some.injEq, Match.mk.injEq, ne_eq, Nat.succ_ne_zero,
        not_false_eq_true, true_and]
      constructor
      · rintro ⟨rfl, rfl⟩
        have hcount : k + 1 + exponentLength ((c :: rest).drop (k + 1)) - 1 + 1 =
            k + 1 + exponentLength ((c :: rest).drop (k + 1)) := by omega
        exact ⟨hcount, by rw [hcount]⟩
      · rintro ⟨hcount, rfl⟩
        refine ⟨?_, by omega⟩
        rw [hcount]

/-- Where there is no mantissa there is no number. -/
theorem number?_eq_none_iff {p : Profile} {c : Char} {rest : List Char} :
    number? p c rest = none ↔ mantissaLength p (c :: rest) = 0 := by
  cases hlength : mantissaLength p (c :: rest) <;> simp [number?, hlength]

/-- Where there is no number there is none, whatever stands behind. -/
theorem number?_none_agrees {p : Profile} {c : Char} (h : Agrees behind behind')
    (hnone : number? p c (cs ++ behind) = none) : number? p c (cs ++ behind') = none := by
  rw [number?_eq_none_iff] at hnone ⊢
  rw [← List.cons_append] at hnone ⊢
  rw [mantissaLength_agrees h (by omega), hnone]

/-- A number is found whatever stands behind it. -/
theorem number?_agrees {p : Profile} {c : Char} {item : Item} (h : Agrees behind behind')
    (hfound : number? p c (cs ++ behind) = some ⟨item, cs.length⟩) :
    number? p c (cs ++ behind') = some ⟨item, cs.length⟩ := by
  rcases number?_eq_some_iff.mp hfound with ⟨hne, hcount, hitem⟩
  rw [← List.cons_append] at hne hcount hitem
  have hmantissa : mantissaLength p (c :: cs ++ behind) ≤ (c :: cs).length := by
    rw [List.length_cons, hcount]
    exact Nat.le_add_right _ _
  have hsame := mantissaLength_agrees h hmantissa
  have hdrop : ∀ rest : List Char, (c :: cs ++ rest).drop (mantissaLength p (c :: cs ++ behind)) =
      (c :: cs).drop (mantissaLength p (c :: cs ++ behind)) ++ rest :=
    fun rest => List.drop_append_of_le_length hmantissa
  have htake : ∀ rest : List Char, (c :: cs ++ rest).take (cs.length + 1) = c :: cs := by
    intro rest
    rw [← List.length_cons (a := c), List.take_left]
  rw [hdrop] at hcount
  have hexponent := exponentLength_agrees ((c :: cs).drop (mantissaLength p (c :: cs ++ behind))) h
    (by
      rw [List.length_drop, List.length_cons]
      omega)
  refine number?_eq_some_iff.mpr ?_
  rw [← List.cons_append, hsame, hdrop, hexponent, htake]
  rw [htake] at hitem
  exact ⟨hne, hcount, hitem⟩

/-! ## Operators and separators -/

/-- An operator or a separator. -/
def symbol? (p : Profile) (c : Char) (rest : List Char) : Option Match :=
  (operator? c rest).or (separator? p c rest)

/-- At most one character is looked at behind the first one of a symbol. -/
theorem symbol?_of_head_eq {p : Profile} {c : Char} (rest rest' : List Char)
    (h : rest'.head? = rest.head?) : symbol? p c rest' = symbol? p c rest := by
  simp only [symbol?, operator?, separator?, h]

/-- Only the first character of a pair that makes a longer symbol is looked behind. -/
theorem symbol?_alone {p : Profile} {c : Char} (hc : c ∉ ['&', '|', '<', '>', ';'])
    (rest rest' : List Char) : symbol? p c rest' = symbol? p c rest := by
  simp only [List.mem_cons, List.not_mem_nil, or_false, not_or] at hc
  have hoperator : operator? c rest' = operator? c rest := by
    unfold operator?
    split <;> simp_all
  have hseparator : separator? p c rest' = separator? p c rest := by
    unfold separator?
    split <;> simp_all
  rw [symbol?, symbol?, hoperator, hseparator]

/-- In front of a blank a short symbol stays one, and nothing else becomes one. -/
theorem symbol?_of_blankOrEnd {p : Profile} {c : Char} {rest rest' : List Char}
    (h : blankOrEnd rest'.head? = true) :
    (symbol? p c rest = none → symbol? p c rest' = none) ∧
    ∀ item, symbol? p c rest = some ⟨item, 0⟩ → symbol? p c rest' = some ⟨item, 0⟩ := by
  have hne : ∀ d, Text.isBlank d = false → rest'.head? ≠ some d := by
    intro d hd hhead
    rw [hhead] at h
    exact absurd (h.symm.trans hd) (by decide)
  by_cases hc : c ∈ ['&', '|', '<', '>', ';']
  · simp only [List.mem_cons, List.not_mem_nil, or_false] at hc
    rcases hc with rfl | rfl | rfl | rfl | rfl
    · have hnext := hne '&' (by decide)
      simp only [symbol?, operator?, hnext, ↓reduceIte]
      split <;> simp [Match.token]
    · have hnext := hne '|' (by decide)
      simp only [symbol?, operator?, hnext, ↓reduceIte]
      split <;> simp [Match.token, separator?]
    · have hequal := hne '=' (by decide)
      have hgreater := hne '>' (by decide)
      simp only [symbol?, operator?, hequal, hgreater, ↓reduceIte]
      repeat' split
      all_goals simp [Match.token]
    · have hequal := hne '=' (by decide)
      simp only [symbol?, operator?, hequal, ↓reduceIte]
      split <;> simp [Match.token]
    · have hnext := hne ';' (by decide)
      have hoperator : ∀ behind : List Char, operator? ';' behind = none := fun _ => rfl
      simp only [symbol?, hoperator, Option.none_or, separator?, hnext, ↓reduceIte]
      cases p with
      | dotDecimal => simp [Match.token]
      | commaDecimal =>
          dsimp only
          split <;> simp [Match.token]
  · rw [symbol?_alone hc rest rest']
    exact ⟨fun hnone => hnone, fun _ hfound => hfound⟩

/-- Where there is no symbol there is none, whatever stands behind. -/
theorem symbol?_none_agrees {p : Profile} {c : Char} (h : Agrees behind behind')
    (hnone : symbol? p c (cs ++ behind) = none) : symbol? p c (cs ++ behind') = none := by
  cases cs with
  | nil =>
      rcases h.head with hsame | hend
      · rwa [List.nil_append, symbol?_of_head_eq behind behind' hsame]
      · exact (symbol?_of_blankOrEnd hend).1 hnone
  | cons d cs => rwa [symbol?_of_head_eq (d :: cs ++ behind) (d :: cs ++ behind') rfl]

/-- A symbol is found whatever stands behind it. -/
theorem symbol?_agrees {p : Profile} {c : Char} {item : Item} (h : Agrees behind behind')
    (hfound : symbol? p c (cs ++ behind) = some ⟨item, cs.length⟩) :
    symbol? p c (cs ++ behind') = some ⟨item, cs.length⟩ := by
  cases cs with
  | nil =>
      rcases h.head with hsame | hend
      · rwa [List.nil_append, symbol?_of_head_eq behind behind' hsame]
      · exact (symbol?_of_blankOrEnd hend).2 item hfound
  | cons d cs => rwa [symbol?_of_head_eq (d :: cs ++ behind) (d :: cs ++ behind') rfl]

end

end FormulaLint
