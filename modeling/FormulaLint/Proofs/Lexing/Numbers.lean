import FormulaLint.Proofs.Lexing.Numerals

/-!
# Reading numbers

A number is read as its digits, fraction and exponent, up to a character that does not continue it.
Every number that is read has the text of one, with a point for the decimal separator of the
profile.

Main results:

- Theorem {lit}`Lexes.number`: a plain number is read as its own text.
- Theorem {lit}`numeral_of_number?`: the text of every number that is read.
- Theorem {lit}`numeral_of_mem_lex`: the same for the tokens of a formula.
- Theorem {lit}`length_of_mem_lex`: no number among the tokens is longer than the text.
-/

namespace FormulaLint

/-! ## Numbers as tokens -/

/-- The character behind a number does not continue it. -/
def EndsNumber (p : Profile) (next : Option Char) : Prop :=
  ∀ c, next = some c → c.isDigit = false ∧ c ≠ p.decimalChar ∧ c ≠ 'e' ∧ c ≠ 'E'

/-- The length of an exponent with a sign. -/
theorem exponentLength_sign {mark sign : Char} (hmark : mark = 'e' ∨ mark = 'E')
    (hsign : sign = '+' ∨ sign = '-') (rest : List Char) :
    exponentLength (mark :: sign :: rest) =
      if digitCount rest = 0 then 0 else digitCount rest + 2 := by
  have hmark' : (mark = 'e' || mark = 'E') = true := by simpa using hmark
  rcases hsign with rfl | rfl <;>
    (simp only [exponentLength, hmark', ↓reduceIte, List.drop_succ_cons, List.drop_zero]
     cases digitCount rest <;> simp)

/-- The length of an exponent without a sign. -/
theorem exponentLength_plain {mark : Char} {rest : List Char} (hmark : mark = 'e' ∨ mark = 'E')
    (hsign : ∀ sign, rest.head? = some sign → sign ≠ '+' ∧ sign ≠ '-') :
    exponentLength (mark :: rest) = if digitCount rest = 0 then 0 else digitCount rest + 1 := by
  have hmark' : (mark = 'e' || mark = 'E') = true := by simpa using hmark
  cases rest with
  | nil => simp [exponentLength, hmark', digitCount]
  | cons d rest =>
      have hd := hsign d rfl
      simp only [exponentLength, hmark', ↓reduceIte, List.cons.injEq, hd.1, hd.2, false_and,
        imp_self, implies_true, List.drop_zero, Nat.add_zero]
      cases digitCount (d :: rest) <;> simp

/-- A digit is no sign. -/
theorem ne_sign_of_isDigit {c : Char} (h : c.isDigit = true) : c ≠ '+' ∧ c ≠ '-' := by
  constructor
  all_goals
    rintro rfl
    simp [Char.isDigit] at h

/-- An exponent that ends is counted. -/
theorem exponentLength_append {p : Profile} {exponent rest : List Char} (h : IsExponent exponent)
    (hrest : EndsNumber p rest.head?) : exponentLength (exponent ++ rest) = exponent.length := by
  rcases h with rfl | ⟨mark, sign, digits, rfl, hmark, hsign, hne, hdigits⟩
  · cases rest with
    | nil => rfl
    | cons c rest =>
        have hc := hrest c rfl
        simp [exponentLength, hc.2.2]
  · have hcount : digitCount (digits ++ rest) = digits.length :=
      digitCount_append hdigits fun c hc => (hrest c hc).1
    have hlength : digits.length ≠ 0 := by simpa using hne
    rw [List.cons_append, List.append_assoc]
    rcases hsign with rfl | rfl | rfl
    · have hplain : ∀ sign, (digits ++ rest).head? = some sign → sign ≠ '+' ∧ sign ≠ '-' := by
        intro sign hhead
        rcases List.exists_cons_of_ne_nil hne with ⟨d, ds, rfl⟩
        rcases Option.some.inj hhead with rfl
        exact ne_sign_of_isDigit (List.all_eq_true.mp hdigits d (List.mem_cons_self ..))
      rw [List.nil_append, exponentLength_plain hmark hplain, hcount, if_neg hlength]
      simp
    · rw [List.singleton_append, exponentLength_sign hmark (Or.inl rfl), hcount, if_neg hlength]
      simp
    · rw [List.singleton_append, exponentLength_sign hmark (Or.inr rfl), hcount, if_neg hlength]
      simp

/-- The code points of digits. -/
theorem toNat_of_isDigit {c : Char} (h : c.isDigit = true) : 48 ≤ c.toNat ∧ c.toNat ≤ 57 := by
  simp only [Char.isDigit, Bool.and_eq_true, decide_eq_true_eq] at h
  have hlow := UInt32.le_iff_toNat_le.mp h.1
  have hhigh := UInt32.le_iff_toNat_le.mp h.2
  exact ⟨hlow, hhigh⟩

/-- A digit starts no name. -/
theorem not_isIdentifierStart_of_isDigit {c : Char} (h : c.isDigit = true) :
    Text.isIdentifierStart c = false := by
  have hcode := toNat_of_isDigit h
  exact Text.CharRanges.contains_cons_of_lt (by omega)

/-- A digit is no blank. -/
theorem not_blank_of_isDigit {c : Char} (h : c.isDigit = true) : Text.isBlank c = false := by
  have hcode := toNat_of_isDigit h
  by_cases hblank : Text.isBlank c = true
  · simp only [Text.isBlank, Bool.or_eq_true, Bool.and_eq_true, decide_eq_true_eq,
      beq_iff_eq] at hblank
    omega
  · simpa using hblank

/-- Where a digit stands, a number is found. -/
theorem recognise_digit {p : Profile} {c : Char} {rest : List Char} {found : Match}
    (hc : c.isDigit = true) (hnumber : number? p c rest = some found) :
    recognise p c rest = found := by
  have hne : ∀ d : Char, d.isDigit = false → c ≠ d := by
    rintro d hd rfl
    simp [hc] at hd
  have hname : name? (c :: rest) = none := by
    simp [name?, hne '\'' (by decide), not_isIdentifierStart_of_isDigit hc]
  have hbracket : bracketName? (c :: rest) = none :=
    bracketName?_of_head_ne (by simpa using hne '[' (by decide))
  simp [recognise, comment?, unterminatedComment?, textLiteral?, unterminated?, disambiguated?,
    identifier?, hne '/' (by decide), hne '"' (by decide), hne '\'' (by decide), hname, hbracket,
    hnumber]

/-- A number is found by the length of its mantissa and of its exponent. -/
theorem number?_append {p : Profile} {c : Char} {cs exponent rest : List Char}
    (hmantissa : mantissaLength p (c :: (cs ++ (exponent ++ rest))) = cs.length + 1)
    (hexponent : exponentLength (exponent ++ rest) = exponent.length) :
    number? p c (cs ++ (exponent ++ rest)) =
      some (.token (.number (String.ofList ((c :: (cs ++ exponent)).map
        fun d => if d = ',' then '.' else d))) (cs ++ exponent).length) := by
  have hdrop : (c :: (cs ++ (exponent ++ rest))).drop (cs.length + 1) = exponent ++ rest := by
    simp
  have htake : (c :: (cs ++ (exponent ++ rest))).take (cs.length + 1 + exponent.length) =
      c :: (cs ++ exponent) := by
    have hlength : cs.length + 1 + exponent.length = (c :: (cs ++ exponent)).length := by
      simp only [List.length_cons, List.length_append]
      omega
    have htext : c :: (cs ++ (exponent ++ rest)) = (c :: (cs ++ exponent)) ++ rest := by simp
    rw [hlength, htext, List.take_left]
  simp only [number?, hmantissa, hdrop, hexponent, htake]
  congr 2
  simp only [List.length_append]
  omega

/-- A comma that was written for a point is read as a point again. -/
theorem map_comma_map_point {cs : List Char} (h : ',' ∉ cs) (p : Profile) :
    (cs.map fun c => if c = '.' then p.decimalChar else c).map
      (fun d => if d = ',' then '.' else d) = cs := by
  rw [List.map_map]
  have hid : ∀ c ∈ cs, ((fun d => if d = ',' then '.' else d) ∘
      fun c => if c = '.' then p.decimalChar else c) c = c := by
    intro c hc
    have hcomma : c ≠ ',' := by
      rintro rfl
      exact h hc
    by_cases hpoint : c = '.'
    · subst hpoint
      cases p <;> rfl
    · simp [hpoint, hcomma]
  rw [List.map_congr_left hid, List.map_id']

/-- Where a character does not stand, it is not replaced. -/
theorem map_replace_of_not_mem {d : Char} {cs : List Char} (h : d ∉ cs) (other : Char) :
    (cs.map fun c => if c = d then other else c) = cs := by
  have hid : ∀ c ∈ cs, (if c = d then other else c) = c := by
    intro c hc
    have hne : c ≠ d := by
      rintro rfl
      exact h hc
    exact if_neg hne
  rw [List.map_congr_left hid, List.map_id']

/-- A number has no comma. -/
theorem PlainNumeral.comma_not_mem {cs : List Char} (h : PlainNumeral cs) : ',' ∉ cs := by
  cases h with
  | whole hdigits _ hexponent =>
      have hnot := not_mem_digits (d := ',') (by decide) hdigits
      have hnot' := hexponent.not_mem (d := ',') (by decide) (by decide)
      simp [hnot, hnot']
  | fraction hdigits hfraction _ _ hexponent =>
      have hnot := not_mem_digits (d := ',') (by decide) hdigits
      have hnot' := not_mem_digits (d := ',') (by decide) hfraction
      have hnot'' := hexponent.not_mem (d := ',') (by decide) (by decide)
      simp [hnot, hnot', hnot'']

/-- What follows the digits of a number without a fraction. -/
theorem head_exponent_append {p : Profile} {exponent rest : List Char} {c : Char}
    (h : IsExponent exponent) (hrest : EndsNumber p rest.head?)
    (hc : (exponent ++ rest).head? = some c) : c.isDigit = false ∧ c ≠ p.decimalChar := by
  rcases h with rfl | ⟨mark, sign, digits, rfl, hmark, -, -, -⟩
  · exact ⟨(hrest c hc).1, (hrest c hc).2.1⟩
  · have hcm : mark = c := by simpa using hc
    subst hcm
    rcases hmark with rfl | rfl <;> cases p <;> exact ⟨by decide, by decide⟩

/-- The mantissa of a number without a fraction. -/
theorem mantissaLength_whole {p : Profile} {digits rest : List Char}
    (hdigits : digits.all Char.isDigit = true)
    (hrest : ∀ c, rest.head? = some c → c.isDigit = false ∧ c ≠ p.decimalChar) :
    mantissaLength p (digits ++ rest) = digits.length := by
  have hcount := digitCount_append hdigits fun c hc => (hrest c hc).1
  unfold mantissaLength
  simp only [hcount, List.drop_left]
  cases p with
  | dotDecimal =>
      dsimp only
      split
      · exact absurd rfl (hrest '.' rfl).2
      · rfl
  | commaDecimal =>
      dsimp only
      split
      · exact absurd rfl (hrest ',' rfl).2
      · rfl

/-- The mantissa of a number with a fraction. -/
theorem mantissaLength_fraction {p : Profile} {digits fraction rest : List Char}
    (hdigits : digits.all Char.isDigit = true) (hne : digits ≠ [])
    (hfraction : fraction.all Char.isDigit = true) (hne' : fraction ≠ [])
    (hrest : ∀ c, rest.head? = some c → c.isDigit = false) :
    mantissaLength p (digits ++ p.decimalChar :: (fraction ++ rest)) =
      digits.length + 1 + fraction.length := by
  have hpoint : p.decimalChar.isDigit = false := by cases p <;> decide
  have hcount : digitCount (digits ++ p.decimalChar :: (fraction ++ rest)) = digits.length := by
    apply digitCount_append hdigits
    intro c hc
    have hcp : p.decimalChar = c := by simpa using hc
    rw [← hcp, hpoint]
  have hcount' := digitCount_append hfraction hrest
  have hlength : digits.length ≠ 0 := by simpa using hne
  have hlength' : fraction.length ≠ 0 := by simpa using hne'
  unfold mantissaLength
  simp only [hcount, List.drop_left]
  cases p with
  | dotDecimal => simp [Profile.decimalChar, hcount', hlength]
  | commaDecimal => simp [Profile.decimalChar, hcount', hlength, hlength']

/-- A plain number is read as its own text, in whatever profile it is written. -/
theorem Lexes.number {p : Profile} {cs : List Char} (h : PlainNumeral cs) :
    Lexes p (EndsNumber p) (cs.map fun c => if c = '.' then p.decimalChar else c)
      [.number (String.ofList cs)] := by
  have hread := map_comma_map_point h.comma_not_mem p
  cases h with
  | @whole digits exponent hdigits hne hexponent =>
      have hwritten : ((digits ++ exponent).map fun c => if c = '.' then p.decimalChar else c) =
          digits ++ exponent := by
        apply map_replace_of_not_mem
        have hnot := not_mem_digits (d := '.') (by decide) hdigits
        have hnot' := hexponent.not_mem (d := '.') (by decide) (by decide)
        simp [hnot, hnot']
      rw [hwritten] at hread ⊢
      rcases List.exists_cons_of_ne_nil hne with ⟨d, ds, rfl⟩
      have hd : d.isDigit = true := List.all_eq_true.mp hdigits d (List.mem_cons_self ..)
      rw [List.cons_append] at hread ⊢
      apply Lexes.single (.number (String.ofList (d :: (ds ++ exponent)))) (not_blank_of_isDigit hd)
        _ (fun _ _ _ => rfl) rfl
      intro rest hrest
      have hmantissa := mantissaLength_whole hdigits fun c hc =>
        head_exponent_append hexponent hrest hc
      have hnumber := number?_append hmantissa (exponentLength_append hexponent hrest)
      rw [hread] at hnumber
      rw [List.append_assoc]
      exact recognise_digit hd hnumber
  | @fraction digits fraction exponent hdigits hfraction hne hne' hexponent =>
      have hwritten : ((digits ++ '.' :: (fraction ++ exponent)).map
          fun c => if c = '.' then p.decimalChar else c) =
          digits ++ p.decimalChar :: (fraction ++ exponent) := by
        rw [List.map_append, List.map_cons, List.map_append,
          map_replace_of_not_mem (not_mem_digits (by decide) hdigits),
          map_replace_of_not_mem (not_mem_digits (by decide) hfraction),
          map_replace_of_not_mem (hexponent.not_mem (by decide) (by decide)), if_pos rfl]
      rw [hwritten] at hread ⊢
      rcases List.exists_cons_of_ne_nil hne with ⟨d, ds, rfl⟩
      have hd : d.isDigit = true := List.all_eq_true.mp hdigits d (List.mem_cons_self ..)
      have htext : d :: ds ++ p.decimalChar :: (fraction ++ exponent) =
          d :: (ds ++ p.decimalChar :: fraction ++ exponent) := by simp
      rw [htext] at hread ⊢
      apply Lexes.single (.number (String.ofList (d :: ds ++ '.' :: (fraction ++ exponent))))
        (not_blank_of_isDigit hd) _ (fun _ _ _ => rfl) rfl
      intro rest hrest
      have hmantissa : mantissaLength p
          (d :: (ds ++ p.decimalChar :: fraction ++ (exponent ++ rest))) =
          (ds ++ p.decimalChar :: fraction).length + 1 := by
        have hlength := mantissaLength_fraction (p := p) hdigits hne hfraction hne'
          fun c hc => (head_exponent_append hexponent hrest hc).1
        simp only [List.cons_append, List.append_assoc, List.length_append,
          List.length_cons] at hlength ⊢
        omega
      have hnumber := number?_append hmantissa (exponentLength_append hexponent hrest)
      rw [hread] at hnumber
      rw [List.append_assoc]
      exact recognise_digit hd hnumber

/-! ## Numbers that are read -/

/-- The digits at the start of a text. -/
theorem take_digitCount (cs : List Char) :
    (cs.take (digitCount cs)).all Char.isDigit = true := by
  have htake : cs.takeWhile Char.isDigit = cs.take (digitCount cs) :=
    List.prefix_iff_eq_take.mp (List.takeWhile_prefix Char.isDigit)
  rw [← htake]
  exact List.all_takeWhile

/-- Digits that are counted are there. -/
theorem take_digitCount_ne_nil {cs : List Char} (h : digitCount cs ≠ 0) :
    cs.take (digitCount cs) ≠ [] := by
  intro hnil
  rcases List.take_eq_nil_iff.mp hnil with hzero | hempty
  · exact h hzero
  · exact h (by simp [hempty, digitCount])

/-- The length of an exponent, by the sign behind its mark. -/
theorem exponentLength_cons {mark : Char} (hmark : mark = 'e' ∨ mark = 'E') (rest : List Char) :
    ∃ sign, (rest.take sign = [] ∨ rest.take sign = ['+'] ∨ rest.take sign = ['-']) ∧
      exponentLength (mark :: rest) =
        if digitCount (rest.drop sign) = 0 then 0 else digitCount (rest.drop sign) + sign + 1 := by
  by_cases hsign : rest.head? = some '+' ∨ rest.head? = some '-'
  · rcases hsign with hplus | hminus
    · rcases List.head?_eq_some_iff.mp hplus with ⟨behind, rfl⟩
      exact ⟨1, Or.inr (Or.inl rfl), exponentLength_sign hmark (Or.inl rfl) behind⟩
    · rcases List.head?_eq_some_iff.mp hminus with ⟨behind, rfl⟩
      exact ⟨1, Or.inr (Or.inr rfl), exponentLength_sign hmark (Or.inr rfl) behind⟩
  · have hplain : ∀ sign, rest.head? = some sign → sign ≠ '+' ∧ sign ≠ '-' := by
      intro sign hhead
      rw [not_or, hhead, Option.some.injEq, Option.some.injEq] at hsign
      exact hsign
    exact ⟨0, Or.inl rfl, exponentLength_plain hmark hplain⟩

/-- The exponent at the start of a text. -/
theorem isExponent_take (cs : List Char) : IsExponent (cs.take (exponentLength cs)) := by
  cases cs with
  | nil => exact Or.inl rfl
  | cons mark rest =>
      by_cases hmark : mark = 'e' ∨ mark = 'E'
      · rcases exponentLength_cons hmark rest with ⟨sign, hsign, hlength⟩
        have hdigits := take_digitCount (rest.drop sign)
        by_cases hcount : digitCount (rest.drop sign) = 0
        · rw [hlength, if_pos hcount]
          exact Or.inl rfl
        · have htake : (mark :: rest).take (digitCount (rest.drop sign) + sign + 1) =
              mark :: (rest.take sign ++ (rest.drop sign).take (digitCount (rest.drop sign))) := by
            rw [List.take_succ_cons, Nat.add_comm _ sign, List.take_add]
          have hne := take_digitCount_ne_nil hcount
          rw [hlength, if_neg hcount, htake]
          exact Or.inr ⟨mark, _, _, rfl, hmark, hsign, hne, hdigits⟩
      · have hlength : exponentLength (mark :: rest) = 0 := by simp [exponentLength, hmark]
        rw [hlength]
        exact Or.inl rfl

/-- Digits keep their text when commas are replaced. -/
theorem map_comma_digits {cs : List Char} (h : cs.all Char.isDigit = true) :
    (cs.map fun d => if d = ',' then '.' else d) = cs :=
  map_replace_of_not_mem (not_mem_digits (by decide) h) '.'

/-- The length of a mantissa with a decimal separator, by the number of digits in front of the
separator and behind it. -/
def fractionLength (p : Profile) (whole fraction : Nat) : Nat :=
  match p with
  | .dotDecimal => if whole = 0 ∧ fraction = 0 then 0 else whole + 1 + fraction
  | .commaDecimal => if whole = 0 ∨ fraction = 0 then whole else whole + 1 + fraction

/-- A decimal separator without digits on one of its sides may be no part of the number, or may
leave no number. -/
theorem fractionLength_cases (p : Profile) (whole fraction : Nat) :
    fractionLength p whole fraction = 0 ∨ fractionLength p whole fraction = whole ∨
      (whole ≠ 0 ∨ fraction ≠ 0) ∧ fractionLength p whole fraction = whole + 1 + fraction := by
  cases p <;> simp only [fractionLength] <;> split <;> omega

/-- The mantissa of a number with a decimal separator. -/
theorem mantissaLength_point {p : Profile} {text rest : List Char}
    (hdrop : text.drop (digitCount text) = p.decimalChar :: rest) :
    mantissaLength p text = fractionLength p (digitCount text) (digitCount rest) := by
  cases p <;> simp [mantissaLength, hdrop, Profile.decimalChar, fractionLength]

/-- The mantissa of a number without a decimal separator. -/
theorem mantissaLength_no_point {p : Profile} {text : List Char}
    (hdrop : (text.drop (digitCount text)).head? ≠ some p.decimalChar) :
    mantissaLength p text = digitCount text := by
  cases hbehind : text.drop (digitCount text) with
  | nil => cases p <;> simp [mantissaLength, hbehind]
  | cons d rest =>
      have hne : d ≠ p.decimalChar := by simpa [hbehind] using hdrop
      cases p <;> simp_all [mantissaLength, Profile.decimalChar]

/-- The mantissa at the start of a text: digits, or digits around a decimal separator. -/
theorem take_mantissaLength {p : Profile} {cs : List Char} (h : mantissaLength p cs ≠ 0) :
    (cs.take (mantissaLength p cs)).all Char.isDigit = true ∨
      ∃ digits fraction, cs.take (mantissaLength p cs) = digits ++ p.decimalChar :: fraction ∧
        digits.all Char.isDigit = true ∧ fraction.all Char.isDigit = true ∧
        (digits ≠ [] ∨ fraction ≠ []) := by
  have hwhole := take_digitCount cs
  by_cases hpoint : (cs.drop (digitCount cs)).head? = some p.decimalChar
  · rcases List.head?_eq_some_iff.mp hpoint with ⟨behind, hdrop⟩
    have hlength := mantissaLength_point hdrop
    rcases fractionLength_cases p (digitCount cs) (digitCount behind)
      with hzero | hnone | ⟨hne, hfraction⟩
    · exact absurd (hlength.trans hzero) h
    · rw [hlength, hnone]
      exact Or.inl hwhole
    · refine Or.inr ⟨cs.take (digitCount cs), behind.take (digitCount behind), ?_, hwhole,
        take_digitCount behind, ?_⟩
      · rw [hlength, hfraction, Nat.add_assoc, List.take_add, hdrop, Nat.add_comm 1,
          List.take_succ_cons]
      · rcases hne with hne | hne
        · exact Or.inl (take_digitCount_ne_nil hne)
        · exact Or.inr (take_digitCount_ne_nil hne)
  · rw [mantissaLength_no_point hpoint]
    exact Or.inl hwhole

/-- The text of a number token is that of a number. -/
theorem numeral_of_number? {p : Profile} {c : Char} {rest : List Char} {text : String} {n : Nat}
    (h : number? p c rest = some ⟨.token (.number text), n⟩) : Numeral text.toList := by
  have hpositive : mantissaLength p (c :: rest) ≠ 0 := by
    intro hzero
    simp [number?, hzero] at h
  have htext : text.toList =
      ((c :: rest).take (mantissaLength p (c :: rest)) ++
        ((c :: rest).drop (mantissaLength p (c :: rest))).take
          (exponentLength ((c :: rest).drop (mantissaLength p (c :: rest))))).map
        fun d => if d = ',' then '.' else d := by
    unfold number? at h
    dsimp only at h
    split at h
    · simp at h
    · simp only [Match.token, Option.some.injEq, Match.mk.injEq, Item.token.injEq,
        Payload.number.injEq] at h
      rw [← h.1, String.toList_ofList, List.take_add]
  have hexponent := isExponent_take ((c :: rest).drop (mantissaLength p (c :: rest)))
  have hkeep := map_replace_of_not_mem (hexponent.not_mem (d := ',') (by decide) (by decide)) '.'
  rw [htext, List.map_append, hkeep]
  rcases take_mantissaLength hpositive
    with hwhole | ⟨digits, fraction, htake, hdigits, hfraction, hne⟩
  · rw [map_comma_digits hwhole]
    refine .whole hwhole ?_ hexponent
    intro hnil
    rcases List.take_eq_nil_iff.mp hnil with h | h
    · exact hpositive h
    · simp at h
  · have hpoint : (if p.decimalChar = ',' then '.' else p.decimalChar) = '.' := by
      cases p <;> rfl
    rw [htake, List.map_append, List.map_cons, map_comma_digits hdigits,
      map_comma_digits hfraction, hpoint, List.append_assoc, List.cons_append]
    exact .fraction hdigits hfraction hne hexponent

/-- Nothing but a number is found as one. -/
theorem number?_of_recognise {p : Profile} {c : Char} {rest : List Char} {text : String} {n : Nat}
    (h : recognise p c rest = ⟨.token (.number text), n⟩) :
    number? p c rest = some ⟨.token (.number text), n⟩ := by
  unfold recognise at h
  dsimp only at h
  cases hfound : List.findSome? (fun alternative => alternative c rest)
      [comment?, unterminatedComment?, textLiteral?, unterminated? '"' .unterminatedText,
        disambiguated?, identifier?, unterminated? '\'' .unterminatedName, number? p, operator?,
        separator? p] with
  | none =>
      rw [hfound] at h
      simp [invalidRun, Match.token] at h
  | some found =>
      rw [hfound, Option.getD_some] at h
      subst h
      rcases List.exists_of_findSome?_eq_some hfound with ⟨alternative, hmem, hfound⟩
      simp only [List.mem_cons, List.not_mem_nil, or_false] at hmem
      rcases hmem with rfl | rfl | rfl | rfl | rfl | rfl | rfl | rfl | rfl | rfl
      · simp only [comment?] at hfound
        split at hfound
        · split at hfound
          · simp at hfound
          · simp at hfound
          · simp at hfound
        · simp at hfound
      · simp [unterminatedComment?, Match.token] at hfound
      · simp [textLiteral?, Match.token] at hfound
      · simp [unterminated?, Match.token] at hfound
      · simp only [disambiguated?] at hfound
        split at hfound <;> simp [Match.token] at hfound
      · simp [identifier?, Match.token] at hfound
      · simp [unterminated?, Match.token] at hfound
      · exact hfound
      · simp only [operator?, Match.token] at hfound
        repeat' split at hfound
        all_goals simp at hfound
      · simp only [separator?, Match.token] at hfound
        repeat' split at hfound
        all_goals simp at hfound

/-- A number is no longer than the text that it was found in. -/
theorem length_of_number? {p : Profile} {c : Char} {rest : List Char} {text : String} {n : Nat}
    (h : number? p c rest = some ⟨.token (.number text), n⟩) :
    text.toList.length ≤ rest.length + 1 := by
  unfold number? at h
  dsimp only at h
  split at h
  · simp at h
  · simp only [Match.token, Option.some.injEq, Match.mk.injEq, Item.token.injEq,
      Payload.number.injEq] at h
    rw [← h.1, String.toList_ofList, List.length_map]
    exact List.length_take_le' ..

/-- Every piece of a text was recognised somewhere in it. -/
theorem item_of_mem_pieces {p : Profile} {index : LineIndex} {before : Option Char} {offset : Nat}
    {text : List Char} {a : Piece} (h : a ∈ pieces p index before offset text) :
    ∃ c rest delimited, rest.length < text.length ∧
      a.item = (recognise p c rest).item.settle delimited := by
  fun_induction pieces p index before offset text with
  | case1 => simp at h
  | case2 before offset c rest hblank ih =>
      rcases ih h with ⟨c', rest', delimited, hlength, hitem⟩
      exact ⟨c', rest', delimited, by simp only [List.length_cons]; omega, hitem⟩
  | case3 before offset c rest hblank found lexeme behind stop ih =>
      rcases List.mem_cons.mp h with rfl | h
      · exact ⟨c, rest, _, by simp, rfl⟩
      · rcases ih h with ⟨c', rest', delimited, hlength, hitem⟩
        have hbehind : behind.length ≤ rest.length := by simp [behind]
        exact ⟨c', rest', delimited, by simp only [List.length_cons]; omega, hitem⟩

/-- No word becomes a number. -/
theorem eq_of_settle_eq_number {item : Item} {delimited : Bool} {number : String}
    (h : item.settle delimited = .token (.number number)) : item = .token (.number number) := by
  unfold Item.settle at h
  split at h
  · rename_i name
    simp only [wordPayload] at h
    repeat' split at h
    all_goals simp at h
  · exact h

/-- Every number among the tokens of a text was found somewhere in it. -/
theorem number?_of_mem_lex {p : Profile} {text : List Char} {placement : Placement} {t : Token}
    {number : String} (ht : t ∈ (lex p text placement).tokens)
    (hnumber : t.payload = .number number) :
    ∃ c rest n, rest.length < text.length ∧
      number? p c rest = some ⟨.token (.number number), n⟩ := by
  rcases List.mem_filterMap.mp ht with ⟨piece, hpiece, htoken⟩
  rcases item_of_mem_pieces hpiece with ⟨c, rest, delimited, hlength, hitem⟩
  have hpayload : piece.item = .token (.number number) := by
    unfold Piece.token? at htoken
    split at htoken
    · simp at htoken
    · rename_i payload hpayload
      have htok := Option.some.inj htoken
      rw [← htok] at hnumber
      rw [hpayload, ← hnumber]
  have hsettle := eq_of_settle_eq_number (hitem.symm.trans hpayload)
  have hfound : recognise p c rest = ⟨.token (.number number), (recognise p c rest).extra⟩ := by
    rw [← hsettle]
  exact ⟨c, rest, _, hlength, number?_of_recognise hfound⟩

/-- Every number among the tokens of a text has the text of a number. -/
theorem numeral_of_mem_lex {p : Profile} {text : List Char} {placement : Placement} {t : Token}
    {number : String} (ht : t ∈ (lex p text placement).tokens)
    (hnumber : t.payload = .number number) : Numeral number.toList := by
  rcases number?_of_mem_lex ht hnumber with ⟨c, rest, n, -, hfound⟩
  exact numeral_of_number? hfound

/-- No number among the tokens of a text is longer than the text. -/
theorem length_of_mem_lex {p : Profile} {text : List Char} {placement : Placement} {t : Token}
    {number : String} (ht : t ∈ (lex p text placement).tokens)
    (hnumber : t.payload = .number number) : number.toList.length ≤ text.length := by
  rcases number?_of_mem_lex ht hnumber with ⟨c, rest, n, hlength, hfound⟩
  exact Nat.le_trans (length_of_number? hfound) hlength

end FormulaLint
