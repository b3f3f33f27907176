import FormulaLint.Proofs.Parentheses.Kinds
import FormulaLint.Proofs.RoundTrip.Expressions

/-!
# Texts of which words may be lost

Where parentheses are left out, a number may come to stand in front of a member.  It takes the point
of the member then, and an exponent from its name, so that fewer words are left than were written.
Nothing else is lost: apart from that a text stands for the tokens of its parts.

Main results:

- Theorem {lit}`Skims.append`: texts that stand one behind the other.
- Theorem {lit}`abridges_number`: a number in front of a point and the name of a member.
- Theorem {lit}`skims_number`: a number in front of anything that may stand behind an expression.
-/

namespace FormulaLint

/-! ## Fewer words -/

/-- The first tokens are the second ones or hold fewer words, and there is no unreadable one among
them unless there is one among the second ones. -/
structure Abridges (ks ks' : List Kind) : Prop where
  eq_or_lt : ks = ks' ∨ wordCount ks < wordCount ks'
  readable : .word false ∈ ks → .word false ∈ ks'

namespace Abridges

variable {ks ks' ks'' : List Kind}

/-- Tokens are themselves. -/
theorem refl (ks : List Kind) : Abridges ks ks :=
  ⟨.inl rfl, id⟩

/-- Fewer words than fewer words. -/
theorem trans (h : Abridges ks ks') (h' : Abridges ks' ks'') : Abridges ks ks'' where
  eq_or_lt := by
    rcases h.eq_or_lt with rfl | hlt
    · exact h'.eq_or_lt
    · rcases h'.eq_or_lt with rfl | hlt'
      · exact .inr hlt
      · exact .inr (Nat.lt_trans hlt hlt')
  readable := fun hks => h'.readable (h.readable hks)

/-- The same tokens in front. -/
theorem append_left (front : List Kind) (h : Abridges ks ks') :
    Abridges (front ++ ks) (front ++ ks') where
  eq_or_lt := by
    rcases h.eq_or_lt with rfl | hlt
    · exact .inl rfl
    · right
      rw [wordCount_append, wordCount_append]
      omega
  readable := by
    intro hks
    rcases List.mem_append.mp hks with hfront | hks
    · exact List.mem_append_left _ hfront
    · exact List.mem_append_right _ (h.readable hks)

end Abridges

/-- A text stands for tokens of the given kinds, or for fewer words, in front of any text that may
follow it and wherever it stands. -/
def Skims (p : Profile) (follow : List Char → Prop) (text : List Char) (ks : List Kind) : Prop :=
  ∀ rest, follow rest → Abridges (kindsOf p (text ++ rest)) (ks ++ kindsOf p rest)

section

variable {p : Profile} {follow follow₁ follow₂ : List Char → Prop} {text text₁ text₂ : List Char}
  {ks ks₁ ks₂ : List Kind}

/-- Nothing stands for nothing. -/
theorem Skims.nil : Skims p follow [] [] :=
  fun _ _ => .refl _

/-- A blank stands for nothing. -/
theorem Skims.blank : Skims p (fun _ => True) [' '] [] := by
  intro rest _
  rw [List.singleton_append, kindsOf_blank]
  exact .refl _

/-- Fewer texts may follow. -/
theorem Skims.imp (h : Skims p follow₁ text ks) (himp : ∀ rest, follow₂ rest → follow₁ rest) :
    Skims p follow₂ text ks :=
  fun rest hrest => h rest (himp rest hrest)

/-- Texts that stand one behind the other. -/
theorem Skims.append (h₁ : Skims p follow₁ text₁ ks₁) (h₂ : Skims p follow₂ text₂ ks₂)
    (hfollow : ∀ rest, follow₂ rest → follow₁ (text₂ ++ rest)) :
    Skims p follow₂ (text₁ ++ text₂) (ks₁ ++ ks₂) := by
  intro rest hrest
  rw [List.append_assoc, List.append_assoc]
  exact (h₁ _ (hfollow rest hrest)).trans ((h₂ rest hrest).append_left ks₁)

/-- What is read as tokens stands for them. -/
theorem Lexes.skims {next : Option Char → Prop} {payloads : List Payload}
    (h : Lexes p next text payloads) :
    Skims p (fun rest => next rest.head?) text (payloads.map Payload.kind) := by
  intro rest hrest
  rw [h.kindsOf_append hrest]
  exact .refl _

end

/-! ## Characters of names -/

section

variable {p : Profile} {c : Char} {rest : List Char}

/-- No symbol starts with a character that could stand in an invalid run. -/
theorem symbol?_eq_none (h : isBoundary c = false) (rest : List Char) : symbol? p c rest = none := by
  have hne : ∀ d, isBoundary d = true → c ≠ d := by
    rintro d hd rfl
    simp [h] at hd
  have hoperator : operator? c rest = none := by
    unfold operator?
    dsimp only
    split <;> first | exact absurd rfl (hne _ (by decide)) | rfl
  have hseparator : separator? p c rest = none := by
    unfold separator?
    dsimp only
    split <;> first | exact absurd rfl (hne _ (by decide)) | rfl
  rw [symbol?, hoperator, hseparator]
  rfl

/-- A character of names is no blank. -/
theorem not_blank_of_part (h : Text.isIdentifierPart c = true) : Text.isBlank c = false := by
  by_cases hblank : Text.isBlank c = true
  · have hapart : ∀ blanks ∈ blankRanges, ∀ range ∈ Text.identifierPartRanges,
        range.2 < blanks.1 ∨ blanks.2 < range.1 := by decide +kernel
    rcases exists_of_isBlank hblank with ⟨blanks, hblanks, hlow, hhigh⟩
    rcases Text.CharRanges.exists_of_contains h with ⟨range, hrange, hlow', hhigh'⟩
    have hdisjoint := hapart blanks hblanks range hrange
    omega
  · simpa using hblank

/-- A character of names is no boundary. -/
theorem not_boundary_of_part (h : Text.isIdentifierPart c = true) : isBoundary c = false := by
  have hboundaries : ("+-*/^&=<>!%.,;:()\x7b\x7d[]\"'|@".toList.all fun d =>
      !Text.isIdentifierPart d) = true := by decide +kernel
  by_cases hboundary : isBoundary c = true
  · have hnot := List.all_eq_true.mp hboundaries c (List.contains_iff_mem.mp hboundary)
    simp [h] at hnot
  · simpa using hboundary

/-- A character that may follow an operand: a delimiter, or the separator of a member. -/
def EndsOperand (p : Profile) (next : Option Char) : Prop :=
  Delimits p next ∨ next = some '.' ∨ next = some '!'

/-- What ends an operand ends a name. -/
theorem EndsOperand.endsName {next : Option Char} (h : EndsOperand p next) : EndsName next := by
  rcases h with h | rfl | rfl
  · exact h.endsName
  · exact endsName_some (by decide) (by decide) (by decide)
  · exact endsName_some (by decide) (by decide) (by decide)

/-- What ends an operand is no part of a number but its point. -/
theorem EndsOperand.not_number {next : Option Char} (h : EndsOperand p next) (hc : next = some c) :
    c.isDigit = false ∧ c ≠ '+' ∧ c ≠ '-' := by
  have hdelimiters : ∀ d ∈ delimiters p, d.isDigit = false ∧ d ≠ '+' ∧ d ≠ '-' := by
    cases p <;> simp only [delimiters, List.forall_mem_cons, List.not_mem_nil, false_implies,
      implies_true, and_true] <;> decide
  rcases h with h | rfl | rfl
  · exact hdelimiters c (h c hc)
  · obtain rfl := Option.some.inj hc
    decide
  · obtain rfl := Option.some.inj hc
    decide

/-- What ends an operand ends a run of invalid characters. -/
theorem EndsOperand.ends_run {next : Option Char} (h : EndsOperand p next) (hc : next = some c) :
    (!Text.isBlank c && !isBoundary c) = false := by
  have hdelimiters : ∀ d ∈ delimiters p, (!Text.isBlank d && !isBoundary d) = false := by
    cases p <;> simp only [delimiters, List.forall_mem_cons, List.not_mem_nil, false_implies,
      implies_true, and_true] <;> decide
  rcases h with h | rfl | rfl
  · exact hdelimiters c (h c hc)
  · obtain rfl := Option.some.inj hc
    decide
  · obtain rfl := Option.some.inj hc
    decide

/-- The last characters of a name are one token, or none. -/
theorem kindsOf_nameEnd {behind : List Char} (hparts : behind.all Text.isIdentifierPart = true)
    (hdigit : ∀ d, behind.head? = some d → d.isDigit = false) (hrest : EndsOperand p rest.head?) :
    ∃ ks, kindsOf p (behind ++ rest) = ks ++ kindsOf p rest ∧ wordCount ks ≤ 1 ∧
      .word false ∉ ks := by
  cases behind with
  | nil => exact ⟨[], rfl, by simp, by simp⟩
  | cons c cs =>
      rw [List.all_cons, Bool.and_eq_true] at hparts
      have hone : ∀ payload : Payload, recognise p c (cs ++ rest) = ⟨.token payload, cs.length⟩ →
          payload.kind = .word true → ∃ ks, kindsOf p (c :: cs ++ rest) = ks ++ kindsOf p rest ∧
            wordCount ks ≤ 1 ∧ .word false ∉ ks := by
        intro payload hfound hkind
        refine ⟨[.word true], ?_, by simp, by simp⟩
        rw [List.cons_append, kindsOf_found (not_blank_of_part hparts.1) hfound, Item.kind?, hkind]
        rfl
      by_cases hstart : Text.isIdentifierStart c = true
      · have hcontinues : cs.all continuesName = true := List.all_eq_true.mpr fun d hd => by
          simp [continuesName, List.all_eq_true.mp hparts.2 d hd]
        exact hone _ (recognise_name (.inr hstart)
          (name?_plain hstart hcontinues hrest.endsName.1) hrest.endsName.2)
          (kind_of_not_number (by simp) (by simp) (by simp))
      · -- a character that only continues names starts a run of invalid ones
        have hboundary := not_boundary_of_part hparts.1
        have hne : ∀ d, isBoundary d = true → c ≠ d := by
          rintro d hd rfl
          simp [hboundary] at hd
        have hother : StartsOther c := ⟨hne '\'' (by decide), by simpa using hstart, hdigit c rfl, by
          simp [hne '"' (by decide), hne '[' (by decide), hne '/' (by decide), hne '.' (by decide)]⟩
        have hrun : (cs ++ rest).takeWhile (fun d => !Text.isBlank d && !isBoundary d) = cs := by
          refine takeWhile_append_of_stop (List.all_eq_true.mpr fun d hd => ?_)
            fun d hd => hrest.ends_run hd
          have hpart := List.all_eq_true.mp hparts.2 d hd
          simp [not_blank_of_part hpart, not_boundary_of_part hpart]
        refine hone (.error .invalidCharacters) ?_
          (kind_of_not_number (by simp) (by simp) (by simp))
        rw [recognise_other p _ hother, symbol?_eq_none hboundary, Option.getD_none, invalidRun, hrun]
        rfl

end

/-! ## Numbers in front of members -/

/-- The exponent that a number finds in the name of a member behind its point, if there is one. -/
theorem exists_exponent {p : Profile} (name : String) {rest : List Char}
    (hrest : EndsOperand p rest.head?) :
    ∃ exponent behind, nameText name = exponent ++ behind ∧
      exponentLength (nameText name ++ rest) = exponent.length ∧
      (exponent = [] ∨ behind.all Text.isIdentifierPart = true ∧
        ∀ d, behind.head? = some d → d.isDigit = false) := by
  rcases nameText_eq_cons name with ⟨c, cs, htext, -⟩
  by_cases hmark : c = 'e' ∨ c = 'E'
  · have hidentifier : isIdentifier (c :: cs) = true := by
      have hplain : needsQuotes name = false := by
        by_contra hquotes
        rw [nameText, if_pos (by simpa using hquotes), Text.enclose] at htext
        rcases hmark with rfl | rfl <;> simp at htext
      rw [nameText, if_neg (by simp [hplain])] at htext
      rw [← htext]
      exact isIdentifier_of_not_needsQuotes hplain
    simp only [isIdentifier, Bool.and_eq_true] at hidentifier
    have hsign : ∀ sign, (cs ++ rest).head? = some sign → sign ≠ '+' ∧ sign ≠ '-' := by
      intro sign hhead
      cases cs with
      | nil => exact (hrest.not_number hhead).2
      | cons d ds =>
          obtain rfl : d = sign := by simpa using hhead
          have hpart : Text.isIdentifierPart d = true :=
            List.all_eq_true.mp hidentifier.2 d (List.mem_cons_self ..)
          have hboundary := not_boundary_of_part hpart
          constructor <;> rintro rfl <;> exact absurd hboundary (by decide)
    have hbehind : ∀ d, (cs.dropWhile Char.isDigit).head? = some d → d.isDigit = false := by
      intro d hd
      have hhead := List.head?_dropWhile_not Char.isDigit cs
      rw [hd] at hhead
      exact hhead
    have hcount : digitCount (cs ++ rest) = (cs.takeWhile Char.isDigit).length := by
      conv => lhs; rw [← List.takeWhile_append_dropWhile (p := Char.isDigit) (l := cs)]
      rw [List.append_assoc]
      refine digitCount_append List.all_takeWhile fun d hd => ?_
      rw [List.head?_append, Option.or_eq_some_iff] at hd
      rcases hd with hd | ⟨-, hd⟩
      · exact hbehind d hd
      · exact (hrest.not_number hd).1
    have hlength := exponentLength_plain hmark hsign
    rw [hcount] at hlength
    rw [htext, List.cons_append, hlength]
    split
    · exact ⟨[], c :: cs, rfl, rfl, .inl rfl⟩
    · refine ⟨c :: cs.takeWhile Char.isDigit, cs.dropWhile Char.isDigit, by simp, rfl,
        .inr ⟨List.all_eq_true.mpr fun d hd => ?_, hbehind⟩⟩
      exact List.all_eq_true.mp hidentifier.2 d ((List.dropWhile_sublist _).subset hd)
  · refine ⟨[], nameText name, rfl, ?_, .inl rfl⟩
    rw [htext, List.cons_append]
    simp [exponentLength, hmark]

/-- A number is found by its mantissa and its exponent. -/
theorem kindsOf_number {p : Profile} {d : Char} {ds exponent rest : List Char}
    (hd : d.isDigit = true)
    (hmantissa : mantissaLength p (d :: ds ++ (exponent ++ rest)) = (d :: ds).length)
    (hexponent : exponentLength (exponent ++ rest) = exponent.length) :
    kindsOf p (d :: ds ++ (exponent ++ rest)) =
      (Payload.number (String.ofList ((d :: (ds ++ exponent)).map
        fun c => if c = ',' then '.' else c))).kind :: kindsOf p rest := by
  have hfound := recognise_digit hd (number?_append hmantissa hexponent)
  rw [← List.append_assoc] at hfound
  rw [List.cons_append, ← List.append_assoc, kindsOf_found (not_blank_of_isDigit hd) hfound]
  rfl

/-- A point and the name of a member are two words. -/
theorem kindsOf_member {p : Profile} {c : Char} (hc : c = '.' ∨ c = '!') (name : String)
    {rest : List Char} (hrest : EndsOperand p rest.head?) :
    kindsOf p (c :: (nameText name ++ rest)) = [.word true, .word true] ++ kindsOf p rest := by
  rcases nameText_eq_cons name with ⟨first, others, htext, hfirst⟩
  have hdigit := not_isDigit_of_start hfirst
  have hname := (Lexes.name (p := p) name).kindsOf_append hrest.endsName
  have hseparator : kindsOf p ([c] ++ (nameText name ++ rest)) =
      [.word true] ++ kindsOf p (nameText name ++ rest) := by
    rcases hc with rfl | rfl
    · exact Lexes.point.kindsOf_append (by simp [htext, hdigit])
    · exact Lexes.notSign.kindsOf_append trivial
  rw [List.singleton_append] at hseparator
  rw [hseparator, hname, List.map_singleton, kind_of_not_number (by simp) (by simp) (by simp)]
  rfl

/-- A number with a point is readable. -/
theorem kind_number_point {text : List Char} (h : '.' ∈ text) :
    (Payload.number (String.ofList text)).kind = .word true := by
  have hmark : text.any (fun c => c == '.' || c == 'e' || c == 'E') = true :=
    List.any_eq_true.mpr ⟨'.', h, by decide⟩
  rw [kind_number, Kind.word.injEq, decide_eq_true_eq, Token.Readable, Token.wholeDigits?]
  simp only [String.toList_ofList, hmark, ↓reduceIte]
  simp

/-- Digits in front of a point take it, and an exponent from the name of the member behind it. -/
theorem abridges_digits {digits : List Char} (hdigits : digits.all Char.isDigit = true)
    (hne : digits ≠ []) (name : String) {rest : List Char}
    (hrest : EndsOperand .dotDecimal rest.head?) (readable : Bool) :
    Abridges (kindsOf .dotDecimal (digits ++ '.' :: (nameText name ++ rest)))
      (.word readable :: kindsOf .dotDecimal ('.' :: (nameText name ++ rest))) := by
  rcases List.exists_cons_of_ne_nil hne with ⟨d, ds, rfl⟩
  have hd : d.isDigit = true := List.all_eq_true.mp hdigits d (List.mem_cons_self ..)
  have hnondigit : ∀ c, (nameText name ++ rest).head? = some c → c.isDigit = false := by
    rcases nameText_eq_cons name with ⟨first, others, htext, hfirst⟩
    intro c hc
    obtain rfl : first = c := by simpa [htext] using hc
    exact not_isDigit_of_start hfirst
  have hmantissa : mantissaLength .dotDecimal (d :: ds ++ '.' :: (nameText name ++ rest)) =
      (d :: (ds ++ ['.'])).length := by
    have hcount : digitCount (d :: ds ++ '.' :: (nameText name ++ rest)) = (d :: ds).length :=
      digitCount_append hdigits fun c hc => by
        obtain rfl : '.' = c := by simpa using hc
        decide
    have hnone : digitCount ([] ++ (nameText name ++ rest)) = 0 := digitCount_append rfl hnondigit
    have hdrop : (d :: ds ++ '.' :: (nameText name ++ rest)).drop (d :: ds).length =
        '.' :: (nameText name ++ rest) := List.drop_left
    rw [List.nil_append] at hnone
    rw [← hcount] at hdrop
    rw [mantissaLength_point hdrop, hcount, hnone]
    simp [fractionLength]
  rcases exists_exponent name hrest with ⟨exponent, behind, htext, hexponent, hcases⟩
  have hkinds : ∃ ks, kindsOf .dotDecimal (behind ++ rest) = ks ++ kindsOf .dotDecimal rest ∧
      wordCount ks ≤ 1 ∧ .word false ∉ ks := by
    rcases hcases with rfl | ⟨hparts, hbehind⟩
    · rw [List.nil_append] at htext
      refine ⟨[.word true], ?_, by simp, by simp⟩
      rw [← htext, (Lexes.name name).kindsOf_append hrest.endsName, List.map_singleton,
        kind_of_not_number (by simp) (by simp) (by simp)]
    · exact kindsOf_nameEnd hparts hbehind hrest
  rcases hkinds with ⟨ks, hbehind, hcount, hreadable⟩
  have hsplit : d :: ds ++ '.' :: (nameText name ++ rest) =
      d :: (ds ++ ['.']) ++ (exponent ++ (behind ++ rest)) := by simp [htext]
  rw [htext, List.append_assoc] at hexponent
  rw [hsplit] at hmantissa ⊢
  rw [kindsOf_number hd hmantissa hexponent, kind_number_point (by simp), hbehind,
    kindsOf_member (.inl rfl) name hrest]
  constructor
  · right
    simp only [wordCount_word, wordCount_append, wordCount_nil]
    omega
  · intro hmem
    exact List.mem_cons_of_mem _ (by simpa [hreadable] using hmem)

/-- A number in front of a point and the name of a member. -/
theorem abridges_number {cs : List Char} (h : PlainNumeral cs) (name : String) {rest : List Char}
    (hrest : EndsOperand .dotDecimal rest.head?) :
    Abridges (kindsOf .dotDecimal (cs ++ '.' :: (nameText name ++ rest)))
      ((Payload.number (String.ofList cs)).kind ::
        kindsOf .dotDecimal ('.' :: (nameText name ++ rest))) := by
  have hread := map_replace_of_not_mem h.comma_not_mem '.'
  -- an exponent stops in front of a point
  have hstops : EndsNumber .commaDecimal ('.' :: (nameText name ++ rest)).head? := by
    intro c hc
    obtain rfl : '.' = c := by simpa using hc
    decide
  -- a mantissa that does not take the point makes the same number
  have hexact : ∀ {mantissa exponent : List Char}, cs = mantissa ++ exponent →
      (∃ d ds, mantissa = d :: ds ∧ d.isDigit = true) → IsExponent exponent →
      mantissaLength .dotDecimal (mantissa ++ (exponent ++ '.' :: (nameText name ++ rest))) =
        mantissa.length →
      Abridges (kindsOf .dotDecimal (cs ++ '.' :: (nameText name ++ rest)))
        ((Payload.number (String.ofList cs)).kind ::
          kindsOf .dotDecimal ('.' :: (nameText name ++ rest))) := by
    rintro _ exponent rfl ⟨d, ds, rfl, hd⟩ hexponent hmantissa
    rw [List.append_assoc, kindsOf_number hd hmantissa (exponentLength_append hexponent hstops),
      ← List.cons_append, hread]
    exact .refl _
  have hfirst : ∀ {digits : List Char} (more : List Char), digits.all Char.isDigit = true →
      digits ≠ [] → ∃ d ds, digits ++ more = d :: ds ∧ d.isDigit = true := by
    intro digits more hdigits hne
    rcases List.exists_cons_of_ne_nil hne with ⟨d, ds, rfl⟩
    exact ⟨d, ds ++ more, rfl, List.all_eq_true.mp hdigits d (List.mem_cons_self ..)⟩
  have hmark : ∀ {exponent : List Char} {c : Char}, IsExponent exponent →
      (exponent ++ '.' :: (nameText name ++ rest)).head? = some c →
        c.isDigit = false ∧ (exponent ≠ [] → c ≠ '.') := by
    rintro exponent c (rfl | ⟨mark, sign, digits, rfl, hmark, -⟩) hc
    · obtain rfl : '.' = c := by simpa using hc
      exact ⟨by decide, fun hne => absurd rfl hne⟩
    · obtain rfl : mark = c := by simpa using hc
      rcases hmark with rfl | rfl <;> exact ⟨by decide, fun _ => by decide⟩
  cases h with
  | @whole digits exponent hdigits hne hexponent =>
      by_cases hnil : exponent = []
      · subst hnil
        rw [List.append_nil]
        exact abridges_digits hdigits hne name hrest _
      · refine hexact rfl (by simpa using hfirst [] hdigits hne) hexponent
          (mantissaLength_whole hdigits fun c hc => ?_)
        exact ⟨(hmark hexponent hc).1, (hmark hexponent hc).2 hnil⟩
  | @fraction digits fraction exponent hdigits hfraction hne hne' hexponent =>
      have hsplit : digits ++ '.' :: (fraction ++ exponent) =
          (digits ++ '.' :: fraction) ++ exponent := by simp
      refine hexact hsplit (hfirst ('.' :: fraction) hdigits hne) hexponent ?_
      have hlength := mantissaLength_fraction (p := .dotDecimal) hdigits hne hfraction hne'
        fun c hc => (hmark hexponent hc).1
      rw [List.append_assoc, List.cons_append]
      refine hlength.trans ?_
      rw [List.length_append, List.length_cons]
      omega

/-- What may stand behind an expression: a delimiter, or the first one of some members. -/
def Behind (p : Profile) (rest : List Char) : Prop :=
  Delimits p rest.head? ∨ ∃ c name more, (c = '.' ∨ c = '!') ∧ rest = c :: (nameText name ++ more) ∧
    EndsOperand p more.head?

/-- What stands behind an expression ends an operand. -/
theorem Behind.endsOperand {p : Profile} {rest : List Char} (h : Behind p rest) :
    EndsOperand p rest.head? := by
  rcases h with h | ⟨c, name, more, rfl | rfl, rfl, -⟩
  · exact .inl h
  · exact .inr (.inl rfl)
  · exact .inr (.inr rfl)

/-- A delimiter may stand behind an expression. -/
theorem behind_cons {p : Profile} {c : Char} (hc : c ∈ delimiters p) (rest : List Char) :
    Behind p (c :: rest) :=
  .inl (delimits_some hc)

/-- A number stands for one token, or takes a word of a member behind it. -/
theorem skims_number {p : Profile} {cs : List Char} (h : PlainNumeral cs) :
    Skims p (Behind p) (cs.map fun c => if c = '.' then p.decimalChar else c)
      [(Payload.number (String.ofList cs)).kind] := by
  intro rest hrest
  by_cases hends : EndsNumber p rest.head?
  · exact (Lexes.number h).skims rest hends
  · -- only a point goes on with a number, and only where it is the decimal separator
    rcases hrest with hrest | ⟨c, name, more, hc, rfl, hmore⟩
    · exact absurd hrest.endsNumber hends
    · have hnot : c ≠ p.decimalChar → EndsNumber p (some c) := by
        intro hne d hd
        obtain rfl := Option.some.inj hd
        rcases hc with rfl | rfl <;> exact ⟨by decide, hne, by decide, by decide⟩
      have hpoint : c = p.decimalChar := by
        by_contra hne
        exact hends (hnot hne)
      cases p with
      | commaDecimal => rcases hc with rfl | rfl <;> exact absurd hpoint (by decide)
      | dotDecimal =>
          have hsame : (cs.map fun c => if c = '.' then Profile.dotDecimal.decimalChar else c) = cs := by
            refine (List.map_congr_left fun c _ => ?_).trans (List.map_id' cs)
            split
            · rename_i hc
              exact hc.symm
            · rfl
          rw [hsame, hpoint]
          exact abridges_number h name hmore

end FormulaLint
