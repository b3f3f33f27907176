import FormulaLint.Parser.Step
import FormulaLint.Proofs.Lexing.Names

/-!
# Texts of numbers

A number is written with digits, a point with more digits, and an exponent.  What is written for it
has digits on both sides of its point, so that both profiles can read it, and writing it again
changes nothing.  It has a value unless it is a whole number of too many digits.

Main results:

- Theorem {lit}`Numeral.plain`: what is written for a number has digits on both sides of its point.
- Theorem {lit}`PlainNumeral.plainNumber_eq`: writing it again changes nothing.
- Theorem {lit}`Numeral.numberValue_plain`: what is written for a number has a value.
-/

namespace FormulaLint

/-! ## Texts of numbers -/

/-- The exponent of a number, which may be missing. -/
def IsExponent (cs : List Char) : Prop :=
  cs = [] ∨ ∃ mark sign digits, cs = mark :: (sign ++ digits) ∧ (mark = 'e' ∨ mark = 'E') ∧
    (sign = [] ∨ sign = ['+'] ∨ sign = ['-']) ∧ digits ≠ [] ∧ digits.all Char.isDigit = true

/-- The texts of numbers: digits, a point with digits behind it, and an exponent.  Digits may be
missing on one side of the point. -/
inductive Numeral : List Char → Prop where
  | whole {digits exponent : List Char} (hdigits : digits.all Char.isDigit = true)
      (hne : digits ≠ []) (hexponent : IsExponent exponent) : Numeral (digits ++ exponent)
  | fraction {digits fraction exponent : List Char} (hdigits : digits.all Char.isDigit = true)
      (hfraction : fraction.all Char.isDigit = true) (hne : digits ≠ [] ∨ fraction ≠ [])
      (hexponent : IsExponent exponent) : Numeral (digits ++ '.' :: (fraction ++ exponent))

/-- The texts of numbers that have digits on both sides of their point. -/
inductive PlainNumeral : List Char → Prop where
  | whole {digits exponent : List Char} (hdigits : digits.all Char.isDigit = true)
      (hne : digits ≠ []) (hexponent : IsExponent exponent) : PlainNumeral (digits ++ exponent)
  | fraction {digits fraction exponent : List Char} (hdigits : digits.all Char.isDigit = true)
      (hfraction : fraction.all Char.isDigit = true) (hne : digits ≠ []) (hne' : fraction ≠ [])
      (hexponent : IsExponent exponent) : PlainNumeral (digits ++ '.' :: (fraction ++ exponent))

/-! ## Writing numbers -/

/-- The text of a number with a digit in front of its point and none without a digit behind it. -/
def plainNumber (text : List Char) : List Char :=
  dropBarePoints (match text with
    | '.' :: _ => '0' :: text
    | _ => text)

/-- A number that has a text is written from it. -/
theorem numberText_eq {value : Number} {text : String} (h : text.toList ≠ []) (point : Char) :
    numberText value text point =
      (plainNumber text.toList).map fun c => if c = '.' then point else c := by
  have hempty : text.isEmpty = false := by
    by_cases hisEmpty : text.isEmpty = true
    · have htext : text = "" := String.isEmpty_iff.mp hisEmpty
      simp [htext] at h
    · simpa using hisEmpty
  have hgiven : (if text.isEmpty then value.text.toList else text.toList) = text.toList := by
    simp only [hempty, Bool.false_eq_true, ↓reduceIte]
  exact congrArg (fun given => (plainNumber given).map fun c => if c = '.' then point else c) hgiven

/-- A character other than a point stays. -/
theorem dropBarePoints_cons {c : Char} (hc : c ≠ '.') (rest : List Char) :
    dropBarePoints (c :: rest) = c :: dropBarePoints rest := by
  simp [dropBarePoints]

/-- Characters other than points stay. -/
theorem dropBarePoints_append {cs : List Char} (hcs : '.' ∉ cs) (rest : List Char) :
    dropBarePoints (cs ++ rest) = cs ++ dropBarePoints rest := by
  induction cs with
  | nil => rfl
  | cons c cs ih =>
      have hc : c ≠ '.' := by
        rintro rfl
        simp at hcs
      have htail : '.' ∉ cs := fun h => hcs (List.mem_cons_of_mem c h)
      rw [List.cons_append, dropBarePoints_cons hc, ih htail, List.cons_append]

/-- What is no digit is not among digits. -/
theorem not_mem_digits {d : Char} {cs : List Char} (hd : d.isDigit = false)
    (h : cs.all Char.isDigit = true) : d ∉ cs := by
  intro hmem
  have hdigit := List.all_eq_true.mp h d hmem
  simp [hd] at hdigit

/-- What no exponent is made of is not in one. -/
theorem IsExponent.not_mem {d : Char} {cs : List Char} (h : IsExponent cs)
    (hd : d.isDigit = false) (hmarks : d ∉ ['e', 'E', '+', '-']) : d ∉ cs := by
  simp only [List.mem_cons, List.not_mem_nil, or_false, not_or] at hmarks
  rcases h with rfl | ⟨mark, sign, digits, rfl, hmark, hsign, -, hdigits⟩
  · simp
  · have hnot := not_mem_digits hd hdigits
    rcases hmark with rfl | rfl <;> rcases hsign with rfl | rfl | rfl <;> simp [hmarks, hnot]

/-- A point in front of a digit stays. -/
theorem dropBarePoints_point {d : Char} (hd : d.isDigit = true) (rest : List Char) :
    dropBarePoints ('.' :: d :: rest) = '.' :: dropBarePoints (d :: rest) := by
  have he : d ≠ 'e' := by
    rintro rfl
    simp [Char.isDigit] at hd
  have hE : d ≠ 'E' := by
    rintro rfl
    simp [Char.isDigit] at hd
  have hline : d ≠ '\n' := by
    rintro rfl
    simp [Char.isDigit] at hd
  simp [dropBarePoints, he, hE, hline]

/-- A point in front of an exponent or at the end is dropped. -/
theorem dropBarePoints_bare {exponent : List Char} (h : IsExponent exponent) :
    dropBarePoints ('.' :: exponent) = dropBarePoints exponent := by
  rcases h with rfl | ⟨mark, sign, digits, rfl, hmark, -, -, -⟩
  · simp [dropBarePoints]
  · have hmark' : mark = 'e' ∨ mark = 'E' ∨ (mark = '\n' ∧ sign ++ digits = []) := by
      rcases hmark with h | h
      · exact Or.inl h
      · exact Or.inr (Or.inl h)
    rw [dropBarePoints.eq_def]
    simp only [hmark', ↓reduceIte]

/-- Digits in front of a text: there is no point to lead. -/
theorem plainNumber_digits {digits : List Char} (h : digits.all Char.isDigit = true)
    (hne : digits ≠ []) (rest : List Char) :
    plainNumber (digits ++ rest) = digits ++ dropBarePoints rest := by
  cases digits with
  | nil => exact absurd rfl hne
  | cons d ds =>
      have hd : d ≠ '.' := by
        rintro rfl
        simp [Char.isDigit] at h
      have hled : plainNumber (d :: ds ++ rest) = dropBarePoints (d :: ds ++ rest) := by
        simp [plainNumber, hd]
      rw [hled, dropBarePoints_append (not_mem_digits (by decide) h)]

/-- An exponent stays as it is. -/
theorem IsExponent.dropBarePoints_eq {cs : List Char} (h : IsExponent cs) :
    dropBarePoints cs = cs := by
  have happend := dropBarePoints_append (h.not_mem (by decide) (by decide)) []
  rw [List.append_nil] at happend
  rw [happend]
  simp [dropBarePoints]

/-- A fraction with a digit stays as it is. -/
theorem dropBarePoints_fraction {fraction exponent : List Char}
    (hfraction : fraction.all Char.isDigit = true) (hne : fraction ≠ [])
    (hexponent : IsExponent exponent) :
    dropBarePoints ('.' :: (fraction ++ exponent)) = '.' :: (fraction ++ exponent) := by
  cases fraction with
  | nil => exact absurd rfl hne
  | cons d ds =>
      have hd : d.isDigit = true := List.all_eq_true.mp hfraction d (List.mem_cons_self ..)
      rw [List.cons_append, dropBarePoints_point hd, ← List.cons_append,
        dropBarePoints_append (not_mem_digits (by decide) hfraction), hexponent.dropBarePoints_eq]

/-- A digit is put in front of a leading point. -/
theorem plainNumber_lead {fraction exponent : List Char}
    (hfraction : fraction.all Char.isDigit = true) (hne : fraction ≠ [])
    (hexponent : IsExponent exponent) :
    plainNumber ('.' :: (fraction ++ exponent)) = ['0'] ++ '.' :: (fraction ++ exponent) := by
  have hled : plainNumber ('.' :: (fraction ++ exponent)) =
      dropBarePoints (['0'] ++ '.' :: (fraction ++ exponent)) := rfl
  rw [hled, dropBarePoints_append (by decide), dropBarePoints_fraction hfraction hne hexponent]

/-- A point without digits behind it is dropped. -/
theorem plainNumber_bare {digits exponent : List Char} (hdigits : digits.all Char.isDigit = true)
    (hne : digits ≠ []) (hexponent : IsExponent exponent) :
    plainNumber (digits ++ '.' :: ([] ++ exponent)) = digits ++ exponent := by
  rw [plainNumber_digits hdigits hne, List.nil_append, dropBarePoints_bare hexponent,
    hexponent.dropBarePoints_eq]

/-- What is written for a number that was read has digits on both sides of its point. -/
theorem Numeral.plain {text : List Char} (h : Numeral text) : PlainNumeral (plainNumber text) := by
  cases h with
  | whole hdigits hne hexponent =>
      rw [plainNumber_digits hdigits hne, hexponent.dropBarePoints_eq]
      exact .whole hdigits hne hexponent
  | @fraction digits fraction exponent hdigits hfraction hne hexponent =>
      by_cases hnone : digits = []
      · subst hnone
        have hfraction' : fraction ≠ [] := by simpa using hne
        rw [List.nil_append, plainNumber_lead hfraction hfraction' hexponent]
        exact .fraction (by decide) hfraction (by simp) hfraction' hexponent
      · by_cases hbare : fraction = []
        · subst hbare
          rw [plainNumber_bare hdigits hnone hexponent]
          exact .whole hdigits hnone hexponent
        · rw [plainNumber_digits hdigits hnone, dropBarePoints_fraction hfraction hbare hexponent]
          exact .fraction hdigits hfraction hnone hbare hexponent

/-- Writing a plain number again changes nothing. -/
theorem PlainNumeral.plainNumber_eq {text : List Char} (h : PlainNumeral text) :
    plainNumber text = text := by
  cases h with
  | whole hdigits hne hexponent =>
      rw [plainNumber_digits hdigits hne, hexponent.dropBarePoints_eq]
  | fraction hdigits hfraction hne hne' hexponent =>
      rw [plainNumber_digits hdigits hne, dropBarePoints_fraction hfraction hne' hexponent]

/-! ## Values of numbers -/

/-- Digits that end are counted. -/
theorem digitCount_append {digits rest : List Char} (hdigits : digits.all Char.isDigit = true)
    (hrest : ∀ c, rest.head? = some c → c.isDigit = false) :
    digitCount (digits ++ rest) = digits.length := by
  rw [digitCount, takeWhile_append_of_stop hdigits hrest]

/-- A number has a text. -/
theorem Numeral.ne_nil {text : List Char} (h : Numeral text) : text ≠ [] := by
  cases h with
  | whole _ hne _ => simp [hne]
  | fraction _ _ _ _ => simp

/-- A number with digits on both sides of its point is a number. -/
theorem PlainNumeral.numeral {text : List Char} (h : PlainNumeral text) : Numeral text := by
  cases h with
  | whole hdigits hne hexponent => exact .whole hdigits hne hexponent
  | fraction hdigits hfraction hne _ hexponent =>
      exact .fraction hdigits hfraction (Or.inl hne) hexponent

/-- An exponent has a mark. -/
theorem IsExponent.eq_nil {cs : List Char} (h : IsExponent cs)
    (hmark : cs.any (fun c => c == '.' || c == 'e' || c == 'E') = false) : cs = [] := by
  rcases h with rfl | ⟨mark, sign, digits, rfl, hmark', -⟩
  · rfl
  · rcases hmark' with rfl | rfl <;> simp at hmark

/-- A number that is written without a point has the digits in front of its point. -/
theorem Numeral.length_plain {text : List Char} (h : Numeral text)
    (hwhole : (plainNumber text).any (fun c => c == '.' || c == 'e' || c == 'E') = false) :
    (plainNumber text).length = digitCount text := by
  cases h with
  | @whole digits exponent hdigits hne hexponent =>
      rw [plainNumber_digits hdigits hne, hexponent.dropBarePoints_eq] at hwhole ⊢
      rw [List.any_append, Bool.or_eq_false_iff] at hwhole
      rw [hexponent.eq_nil hwhole.2, digitCount_append hdigits (by simp), List.append_nil]
  | @fraction digits fraction exponent hdigits hfraction hne hexponent =>
      by_cases hnone : digits = []
      · subst hnone
        rw [List.nil_append, plainNumber_lead hfraction (by simpa using hne) hexponent] at hwhole
        simp at hwhole
      · by_cases hbare : fraction = []
        · subst hbare
          have hpoint : ∀ c, ('.' :: ([] ++ exponent)).head? = some c → c.isDigit = false := by
            intro c hc
            have hcp : '.' = c := by simpa using hc
            rw [← hcp]
            decide
          rw [plainNumber_bare hdigits hnone hexponent] at hwhole ⊢
          rw [List.any_append, Bool.or_eq_false_iff] at hwhole
          rw [digitCount_append hdigits hpoint, hexponent.eq_nil hwhole.2, List.append_nil]
        · rw [plainNumber_digits hdigits hnone,
            dropBarePoints_fraction hfraction hbare hexponent] at hwhole
          simp at hwhole

/-- A number with few enough digits in front of its point has a value after it was written. -/
theorem Numeral.numberValue_plain {text : List Char} (h : Numeral text)
    (hdigits : digitCount text ≤ maxWholeDigits) :
    ∃ value, numberValue (String.ofList (plainNumber text)) = .ok value := by
  by_cases hdouble : (plainNumber text).any (fun c => c == '.' || c == 'e' || c == 'E') = true
  · refine ⟨.double ((Decimal.ofChars (plainNumber text)).toDouble false), ?_⟩
    simp only [numberValue, String.toList_ofList, hdouble, ↓reduceIte]
  · have hwhole : (plainNumber text).any (fun c => c == '.' || c == 'e' || c == 'E') = false := by
      simpa using hdouble
    have hlength := h.length_plain hwhole
    refine ⟨.whole (natOfDigits (plainNumber text)), ?_⟩
    simp only [numberValue, String.toList_ofList, hwhole, Bool.false_eq_true, ↓reduceIte]
    rw [if_neg (by omega)]

end FormulaLint
