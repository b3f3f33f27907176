import FormulaLint.Proofs.Forms.Form
import FormulaLint.Proofs.RoundTrip.Writes

/-!
# Where the texts in a canonical form end

Texts stand one behind the other in a canonical form, and only what is behind a text tells where it
ends.  A way of writing is distinct when two texts with something behind them can be equal only if
they are written for the same thing.  Names, texts, numbers, members and lists are written in such a
way.

Main results:

- Theorem {lit}`nameText_distinct` and its companions: single names, texts and numbers.
- Theorem {lit}`chainText_distinct`: chains of members.
- Theorem {lit}`Distinct.intercalate` and {lit}`Distinct.bracketed`: lists.
-/

namespace FormulaLint

/-- Whether a text tells what it is written for, and where it ends, among the texts of certain things
with certain texts behind them. -/
def Distinct {α : Type} (follow : List Char → Prop) (P : α → Prop) (text : α → List Char) (x : α) :
    Prop :=
  ∀ y rest rest', P y → follow rest → follow rest' → text x ++ rest = text y ++ rest' →
    x = y ∧ rest = rest'

/-! ## What stands behind an expression -/

/-- The characters that may stand behind an expression with its members. -/
def closingChars : List Char :=
  [' ', ',', ')', ']', '\x7d', '%', ';']

/-- Whether a text may stand behind an expression with its members. -/
def EndsItem (rest : List Char) : Prop :=
  ∀ c, rest.head? = some c → c ∈ closingChars

/-- Whether members are accessed as formulas do it. -/
def MembersAccessed (chain : List Segment) : Prop :=
  ∀ segment ∈ chain, segment.separator = .dot ∨ segment.separator = .notSign

/-- Whether a text may stand behind an expression without members: members and what may follow
them. -/
def EndsPrimary (rest : List Char) : Prop :=
  ∃ chain behind, MembersAccessed chain ∧ EndsItem behind ∧ rest = chainText chain ++ behind

section

variable {rest rest' : List Char} {chain chain' : List Segment}

/-- A closing character may stand behind an expression. -/
theorem endsItem_cons {c : Char} (hc : c ∈ closingChars) (rest : List Char) :
    EndsItem (c :: rest) := by
  intro d hd
  obtain rfl : c = d := by simpa using hd
  exact hc

/-- Nothing may stand behind an expression. -/
theorem endsItem_nil : EndsItem [] := by simp [EndsItem]

/-- The separator of a member is one character. -/
theorem separator_cases {segment : Segment}
    (h : segment.separator = .dot ∨ segment.separator = .notSign) :
    segment.separator.spelling.toList = ['.'] ∨ segment.separator.spelling.toList = ['!'] := by
  rcases h with h | h <;> simp [h, Operator.spelling]

/-- What stands behind an expression without members starts with a closing character or with the
separator of a member, behind which there is a name. -/
theorem EndsPrimary.cases (h : EndsPrimary rest) :
    EndsItem rest ∨ ∃ c name behind, (c = '.' ∨ c = '!') ∧ rest = c :: (nameText name ++ behind) := by
  rcases h with ⟨chain, behind, hchain, hbehind, rfl⟩
  cases chain with
  | nil => exact Or.inl (by simpa [chainText] using hbehind)
  | cons segment chain =>
      right
      have htext : chainText (segment :: chain) ++ behind = segment.separator.spelling.toList ++
          (nameText segment.name ++ (chainText chain ++ behind)) := by
        simp [chainText]
      rcases separator_cases (hchain segment (by simp)) with hseparator | hseparator
      · exact ⟨'.', segment.name, _, Or.inl rfl, by rw [htext, hseparator]; rfl⟩
      · exact ⟨'!', segment.name, _, Or.inr rfl, by rw [htext, hseparator]; rfl⟩

/-- The first character behind an expression without members. -/
theorem EndsPrimary.head_mem (h : EndsPrimary rest) {c : Char} (hc : rest.head? = some c) :
    c ∈ '.' :: '!' :: closingChars := by
  rcases h.cases with h | ⟨d, name, behind, hd, rfl⟩
  · exact List.mem_cons_of_mem _ (List.mem_cons_of_mem _ (h c hc))
  · obtain rfl : d = c := by simpa using hc
    rcases hd with rfl | rfl <;> simp

/-- What stands behind an expression ends a name in front. -/
theorem EndsPrimary.endsWord (h : EndsPrimary rest) : EndsWord rest.head? := by
  intro c hc
  have hall : ∀ d ∈ '.' :: '!' :: closingChars, continuesName d = false ∧ d ≠ '\'' := by
    simp only [closingChars, List.forall_mem_cons, List.not_mem_nil, false_implies, implies_true,
      and_true]
    decide
  exact hall c (h.head_mem hc)

/-- A character that stands behind no expression. -/
theorem EndsPrimary.ne_cons (h : EndsPrimary rest) {c : Char} {behind : List Char}
    (hc : c ∉ '.' :: '!' :: closingChars) : rest ≠ c :: behind := by
  rintro rfl
  exact hc (h.head_mem rfl)

end

/-! ## Names -/

/-- A text that is read as the given name. -/
def ReadsName (text : List Char) (name : String) (quoted : Bool) : Prop :=
  ∀ rest : List Char, EndsWord rest.head? →
    name? (text ++ rest) = some ⟨name, quoted, text.length⟩

/-- Two texts that are read as names. -/
theorem ReadsName.inj {text text' rest rest' : List Char} {name name' : String}
    {quoted quoted' : Bool} (h : ReadsName text name quoted) (h' : ReadsName text' name' quoted')
    (hrest : EndsWord rest.head?) (hrest' : EndsWord rest'.head?)
    (heq : text ++ rest = text' ++ rest') : name = name' ∧ quoted = quoted' ∧ rest = rest' := by
  have hread := h rest hrest
  rw [heq, h' rest' hrest'] at hread
  have hmatch := Option.some.inj hread
  refine ⟨(congrArg NameMatch.name hmatch).symm, (congrArg NameMatch.quoted hmatch).symm, ?_⟩
  exact (List.append_inj heq (congrArg NameMatch.length hmatch).symm).2

/-- A name as it is written. -/
theorem readsName_nameText (name : String) : ReadsName (nameText name) name (needsQuotes name) :=
  fun _ hrest => name?_nameText name hrest

/-- A name by its characters. -/
theorem readsName_plain {word : String} (h : isIdentifier word.toList = true) :
    ReadsName word.toList word false := by
  rcases chars_of_isIdentifier h with ⟨c, cs, hchars, hc, hcs⟩
  intro rest hrest
  have hname : String.ofList (c :: cs) = word := by rw [← hchars, String.ofList_toList]
  rw [hchars, List.cons_append, name?_plain hc hcs hrest, hname, List.length_cons]

/-- A part of a function name as it is written. -/
theorem readsName_calleePartText (part : String) :
    ReadsName (calleePartText part) part (calleeQuoted part) := by
  by_cases hword : part ∈ operatorWords
  · have hplain := readsName_plain (isIdentifier_of_operatorWord hword)
    simpa only [calleePartText, calleeQuoted, List.contains_iff_mem.mpr hword, ↓reduceIte,
      Bool.not_true, Bool.false_and] using hplain
  · have hcontains : operatorWords.contains part = false := by simpa using hword
    simpa only [calleePartText, calleeQuoted, hcontains, Bool.false_eq_true, ↓reduceIte,
      Bool.not_false, Bool.true_and] using readsName_nameText part

/-- Names tell where they end. -/
theorem nameText_distinct (name : String) :
    Distinct (fun rest => EndsWord rest.head?) (fun _ => True) nameText name := by
  intro name' rest rest' _ hrest hrest' h
  rcases (readsName_nameText name).inj (readsName_nameText name') hrest hrest' h
    with ⟨hname, -, hrests⟩
  exact ⟨hname, hrests⟩

/-! ## Members -/

/-- The text of a chain with one more member in front. -/
theorem chainText_cons (segment : Segment) (chain : List Segment) :
    chainText (segment :: chain) =
      segment.separator.spelling.toList ++ (nameText segment.name ++ chainText chain) := by
  simp [chainText]

/-- Where an expression may end there is no member. -/
theorem not_endsItem_chainText {segment : Segment}
    (hsegment : segment.separator = .dot ∨ segment.separator = .notSign) (chain : List Segment)
    (rest : List Char) : ¬ EndsItem (chainText (segment :: chain) ++ rest) := by
  intro h
  rw [chainText_cons] at h
  rcases separator_cases hsegment with hspelling | hspelling <;>
    exact absurd (h _ (by rw [hspelling]; rfl)) (by decide)

/-- The separator of a member in front of its name. -/
theorem separator_inj {segment segment' : Segment} {rest rest' : List Char}
    (hsegment : segment.separator = .dot ∨ segment.separator = .notSign)
    (hsegment' : segment'.separator = .dot ∨ segment'.separator = .notSign)
    (h : segment.separator.spelling.toList ++ rest = segment'.separator.spelling.toList ++ rest') :
    segment.separator = segment'.separator ∧ rest = rest' := by
  rcases hsegment with hseparator | hseparator <;> rcases hsegment' with hseparator' | hseparator' <;>
    simp [hseparator, hseparator', Operator.spelling] at h ⊢ <;> exact h

/-- Chains of members tell where they end. -/
theorem chainText_distinct {chain chain' : List Segment} {rest rest' : List Char}
    (hchain : MembersAccessed chain) (hchain' : MembersAccessed chain') (hrest : EndsItem rest)
    (hrest' : EndsItem rest') (h : chainText chain ++ rest = chainText chain' ++ rest') :
    chain.map Segment.form = chain'.map Segment.form ∧ rest = rest' := by
  induction chain generalizing chain' with
  | nil =>
      cases chain' with
      | nil => exact ⟨rfl, by simpa [chainText] using h⟩
      | cons segment' chain' =>
          have hnot := not_endsItem_chainText (hchain' segment' (by simp)) chain' rest'
          rw [← h] at hnot
          exact absurd hrest hnot
  | cons segment chain ih =>
      cases chain' with
      | nil =>
          have hnot := not_endsItem_chainText (hchain segment (by simp)) chain rest
          rw [h] at hnot
          exact absurd hrest' hnot
      | cons segment' chain' =>
          have hmore : MembersAccessed chain := fun s hs => hchain s (by simp [hs])
          have hmore' : MembersAccessed chain' := fun s hs => hchain' s (by simp [hs])
          rw [chainText_cons, chainText_cons, List.append_assoc, List.append_assoc, List.append_assoc,
            List.append_assoc] at h
          rcases separator_inj (hchain segment (by simp)) (hchain' segment' (by simp)) h
            with ⟨hseparator, hnames⟩
          have hends : EndsPrimary (chainText chain ++ rest) := ⟨chain, rest, hmore, hrest, rfl⟩
          have hends' : EndsPrimary (chainText chain' ++ rest') :=
            ⟨chain', rest', hmore', hrest', rfl⟩
          rcases nameText_distinct segment.name segment'.name _ _ trivial hends.endsWord
            hends'.endsWord hnames with ⟨hname, hbehind⟩
          rcases ih hmore hmore' hbehind with ⟨hforms, hrests⟩
          refine ⟨?_, hrests⟩
          rw [List.map_cons, List.map_cons, hforms]
          simp [Segment.form, hseparator, hname]

/-! ## Texts and numbers -/

/-- Texts tell where they end. -/
theorem quotedText_distinct (value : String) :
    Distinct (fun rest => rest.head? ≠ some '"') (fun _ => True) quotedText value := by
  intro value' rest rest' _ hrest hrest' h
  have hread := Text.closing_double_append value.toList rest hrest
  have hread' := Text.closing_double_append value'.toList rest' hrest'
  have htexts : Text.double '"' value.toList ++ '"' :: rest =
      Text.double '"' value'.toList ++ '"' :: rest' := by
    simpa [quotedText, Text.enclose] using h
  rw [htexts, hread'] at hread
  have hvalues : value'.toList = value.toList := congrArg Prod.fst (Option.some.inj hread)
  obtain rfl : value' = value := String.ext hvalues
  exact ⟨rfl, by simpa using htexts⟩

/-- Digits tell where they end. -/
theorem digits_inj {digits digits' rest rest' : List Char} (hdigits : digits.all Char.isDigit = true)
    (hdigits' : digits'.all Char.isDigit = true)
    (hrest : ∀ c, rest.head? = some c → c.isDigit = false)
    (hrest' : ∀ c, rest'.head? = some c → c.isDigit = false)
    (h : digits ++ rest = digits' ++ rest') : digits = digits' ∧ rest = rest' := by
  have htake := takeWhile_append_of_stop hdigits hrest
  rw [h, takeWhile_append_of_stop hdigits' hrest'] at htake
  subst htake
  exact ⟨rfl, List.append_cancel_left h⟩

/-- What stands behind an expression ends a number in front: no digit, no exponent, and no point with
a digit behind it. -/
theorem EndsPrimary.endsNumber {rest : List Char} (h : EndsPrimary rest) :
    (∀ c, rest.head? = some c → c.isDigit = false ∧ c ≠ 'e' ∧ c ≠ 'E') ∧
      ∀ d behind, d.isDigit = true → rest ≠ '.' :: d :: behind := by
  constructor
  · intro c hc
    have hall : ∀ d ∈ '.' :: '!' :: closingChars, d.isDigit = false ∧ d ≠ 'e' ∧ d ≠ 'E' := by
      simp only [closingChars, List.forall_mem_cons, List.not_mem_nil, false_implies, implies_true,
        and_true]
      decide
    exact hall c (h.head_mem hc)
  · rintro d behind hd rfl
    rcases h.cases with hitem | ⟨c, name, more, -, heq⟩
    · exact absurd (hitem '.' rfl) (by decide)
    · rcases nameText_eq_cons name with ⟨first, cs, htext, hfirst⟩
      rw [htext] at heq
      obtain ⟨-, rfl, -⟩ : '.' = c ∧ d = first ∧ behind = cs ++ more := by simpa using heq
      rcases hfirst with rfl | hfirst
      · simp at hd
      · simp [not_isIdentifierStart_of_isDigit hd] at hfirst

/-- Digits start with a digit. -/
theorem exists_digit {digits : List Char} (hne : digits ≠ []) (h : digits.all Char.isDigit = true) :
    ∃ d ds, digits = d :: ds ∧ d.isDigit = true := by
  rcases List.exists_cons_of_ne_nil hne with ⟨d, ds, rfl⟩
  exact ⟨d, ds, rfl, List.all_eq_true.mp h d (List.mem_cons_self ..)⟩

/-- Numbers start with a digit. -/
theorem PlainNumeral.exists_digit {cs : List Char} (h : PlainNumeral cs) :
    ∃ d ds, cs = d :: ds ∧ d.isDigit = true := by
  cases h with
  | whole hdigits hne _ | fraction hdigits _ hne _ _ =>
      rcases FormulaLint.exists_digit hne hdigits with ⟨d, ds, rfl, hd⟩
      exact ⟨d, _, rfl, hd⟩

/-- The sign of an exponent in front of its digits. -/
theorem sign_inj {sign sign' rest rest' : List Char} {d d' : Char}
    (hsign : sign = [] ∨ sign = ['+'] ∨ sign = ['-'])
    (hsign' : sign' = [] ∨ sign' = ['+'] ∨ sign' = ['-']) (hd : d.isDigit = true)
    (hd' : d'.isDigit = true) (h : sign ++ d :: rest = sign' ++ d' :: rest') :
    sign = sign' ∧ d :: rest = d' :: rest' := by
  rcases hsign with rfl | rfl | rfl <;> rcases hsign' with rfl | rfl | rfl <;>
    simp only [List.nil_append, List.cons_append, List.cons.injEq, true_and] at h ⊢
  -- no sign is a digit
  all_goals first
    | exact h
    | (rcases h with ⟨rfl, -⟩; simp at hd hd')
    | (exact absurd h.1 (by decide))

/-- Exponents tell where they end. -/
theorem exponent_inj {exponent exponent' rest rest' : List Char} (h : IsExponent exponent)
    (h' : IsExponent exponent')
    (hrest : ∀ c, rest.head? = some c → c.isDigit = false ∧ c ≠ 'e' ∧ c ≠ 'E')
    (hrest' : ∀ c, rest'.head? = some c → c.isDigit = false ∧ c ≠ 'e' ∧ c ≠ 'E')
    (heq : exponent ++ rest = exponent' ++ rest') : exponent = exponent' ∧ rest = rest' := by
  rcases h with rfl | ⟨mark, sign, digits, rfl, hmark, hsign, hne, hdigits⟩ <;>
    rcases h' with rfl | ⟨mark', sign', digits', rfl, hmark', hsign', hne', hdigits'⟩
  · exact ⟨rfl, heq⟩
  · have hhead := hrest mark' (by rw [← List.nil_append rest, heq]; rfl)
    rcases hmark' with rfl | rfl <;> simp at hhead
  · have hhead := hrest' mark (by rw [← List.nil_append rest', ← heq]; rfl)
    rcases hmark with rfl | rfl <;> simp at hhead
  · rcases exists_digit hne hdigits with ⟨d, ds, rfl, hd⟩
    rcases exists_digit hne' hdigits' with ⟨d', ds', rfl, hd'⟩
    simp only [List.cons_append, List.append_assoc, List.cons.injEq] at heq
    rcases heq with ⟨rfl, hbehind⟩
    rcases sign_inj hsign hsign' hd hd' hbehind with ⟨rfl, hall⟩
    rcases digits_inj hdigits hdigits' (fun c hc => (hrest c hc).1) (fun c hc => (hrest' c hc).1)
      hall with ⟨hsame, hrests⟩
    rw [hsame]
    exact ⟨rfl, hrests⟩

/-- Behind a whole number with its exponent there is no fraction. -/
theorem exponent_ne_fraction {exponent rest fraction behind : List Char} (h : IsExponent exponent)
    (hrest : EndsPrimary rest) (hne : fraction ≠ []) (hfraction : fraction.all Char.isDigit = true) :
    exponent ++ rest ≠ '.' :: (fraction ++ behind) := by
  rcases exists_digit hne hfraction with ⟨d, ds, rfl, hd⟩
  rcases h with rfl | ⟨mark, sign, digits, rfl, hmark, -⟩
  · exact hrest.endsNumber.2 d _ hd
  · intro heq
    have hpoint : mark = '.' := (List.cons.inj heq).1
    rcases hmark with rfl | rfl <;> simp at hpoint

/-- What starts behind the digits of a number is no digit. -/
theorem head_exponent {exponent rest : List Char} (h : IsExponent exponent)
    (hrest : EndsPrimary rest) (c : Char) (hc : (exponent ++ rest).head? = some c) :
    c.isDigit = false := by
  rcases h with rfl | ⟨mark, sign, digits, rfl, hmark, -⟩
  · exact (hrest.endsNumber.1 c hc).1
  · obtain rfl : mark = c := by simpa using hc
    rcases hmark with rfl | rfl <;> decide

/-- Numbers tell where they end. -/
theorem plainNumeral_inj {cs cs' rest rest' : List Char} (h : PlainNumeral cs)
    (h' : PlainNumeral cs') (hrest : EndsPrimary rest) (hrest' : EndsPrimary rest')
    (heq : cs ++ rest = cs' ++ rest') : cs = cs' ∧ rest = rest' := by
  have hpoint : ∀ (behind : List Char) (c : Char), ('.' :: behind).head? = some c →
      c.isDigit = false := by
    rintro behind c ⟨⟩
    decide
  cases h with
  | whole hdigits _ hexponent =>
      cases h' with
      | whole hdigits' _ hexponent' =>
          rw [List.append_assoc, List.append_assoc] at heq
          rcases digits_inj hdigits hdigits' (head_exponent hexponent hrest)
            (head_exponent hexponent' hrest') heq with ⟨rfl, hbehind⟩
          rcases exponent_inj hexponent hexponent' hrest.endsNumber.1 hrest'.endsNumber.1 hbehind
            with ⟨rfl, rfl⟩
          exact ⟨rfl, rfl⟩
      | fraction hdigits' hfraction' _ hne' hexponent' =>
          rw [List.append_assoc, List.append_assoc, List.cons_append, List.append_assoc] at heq
          have hbehind := (digits_inj hdigits hdigits' (head_exponent hexponent hrest) (hpoint _)
            heq).2
          exact absurd hbehind (exponent_ne_fraction hexponent hrest hne' hfraction')
  | fraction hdigits hfraction _ hne hexponent =>
      cases h' with
      | whole hdigits' _ hexponent' =>
          rw [List.append_assoc, List.append_assoc, List.cons_append, List.append_assoc] at heq
          have hbehind := (digits_inj hdigits hdigits' (hpoint _) (head_exponent hexponent' hrest')
            heq).2
          exact absurd hbehind.symm (exponent_ne_fraction hexponent' hrest' hne hfraction)
      | fraction hdigits' hfraction' _ hne' hexponent' =>
          simp only [List.append_assoc, List.cons_append] at heq
          rcases digits_inj hdigits hdigits' (hpoint _) (hpoint _) heq with ⟨rfl, hfractions⟩
          rcases digits_inj hfraction hfraction' (head_exponent hexponent hrest)
            (head_exponent hexponent' hrest') (List.cons.inj hfractions).2 with ⟨rfl, hbehind⟩
          rcases exponent_inj hexponent hexponent' hrest.endsNumber.1 hrest'.endsNumber.1 hbehind
            with ⟨rfl, rfl⟩
          exact ⟨rfl, rfl⟩

/-! ## Function names -/

/-- The parts of a function name behind the first one. -/
def calleeRest (parts : List String) : List Char :=
  parts.flatMap fun part => '.' :: calleePartText part

/-- A function name is its first part and the others, each behind a point. -/
theorem exists_calleeText_eq (qualifiers : List String) (function : String) :
    ∃ first parts, qualifiers ++ [function] = first :: parts ∧
      calleeText qualifiers function = calleePartText first ++ calleeRest parts := by
  rcases List.exists_cons_of_ne_nil (List.append_ne_nil_of_right_ne_nil qualifiers
    (List.cons_ne_nil function [])) with ⟨first, parts, hparts⟩
  have htext : calleeText qualifiers function =
      ['.'].intercalate ((qualifiers ++ [function]).map calleePartText) := rfl
  refine ⟨first, parts, hparts, ?_⟩
  rw [htext, hparts, intercalate_map_cons]
  rfl

/-- Behind a part of a function name there is another one or a parenthesis. -/
theorem calleeRest_cases (parts : List String) (rest : List Char) :
    EndsWord (calleeRest parts ++ '(' :: rest).head? := by
  cases parts with
  | nil => exact endsWord_some (by decide) (by decide)
  | cons part parts => exact endsWord_some (by decide) (by decide)

/-- Function names tell where they end. -/
theorem calleeRest_inj {parts parts' : List String} {rest rest' : List Char}
    (h : calleeRest parts ++ '(' :: rest = calleeRest parts' ++ '(' :: rest') :
    parts = parts' ∧ rest = rest' := by
  induction parts generalizing parts' with
  | nil =>
      cases parts' with
      | nil => exact ⟨rfl, by simpa [calleeRest] using h⟩
      | cons part' parts' => simp [calleeRest] at h
  | cons part parts ih =>
      cases parts' with
      | nil => simp [calleeRest] at h
      | cons part' parts' =>
          have htexts : calleePartText part ++ (calleeRest parts ++ '(' :: rest) =
              calleePartText part' ++ (calleeRest parts' ++ '(' :: rest') := by
            simpa [calleeRest] using h
          obtain ⟨rfl, -, hbehind⟩ := (readsName_calleePartText part).inj
            (readsName_calleePartText part') (calleeRest_cases parts rest)
            (calleeRest_cases parts' rest') htexts
          rcases ih hbehind with ⟨rfl, hrests⟩
          exact ⟨rfl, hrests⟩

/-- Members are no function name. -/
theorem chainText_ne_calleeRest {chain : List Segment} {parts : List String}
    {behind rest : List Char} (hchain : MembersAccessed chain) (hbehind : EndsItem behind) :
    chainText chain ++ behind ≠ calleeRest parts ++ '(' :: rest := by
  induction chain generalizing parts with
  | nil =>
      rintro rfl
      cases parts with
      | nil => exact absurd (hbehind '(' rfl) (by decide)
      | cons part parts => exact absurd (hbehind '.' rfl) (by decide)
  | cons segment chain ih =>
      intro h
      have hmore : MembersAccessed chain := fun s hs => hchain s (by simp [hs])
      rw [chainText_cons, List.append_assoc, List.append_assoc] at h
      cases parts with
      | nil =>
          rcases separator_cases (hchain segment (by simp)) with hspelling | hspelling <;>
            simp [calleeRest, hspelling] at h
      | cons part parts =>
          have hnames : nameText segment.name ++ (chainText chain ++ behind) =
              calleePartText part ++ (calleeRest parts ++ '(' :: rest) := by
            rcases separator_cases (hchain segment (by simp)) with hspelling | hspelling
            · simpa [calleeRest, hspelling] using h
            · simp [calleeRest, hspelling] at h
          have hends : EndsPrimary (chainText chain ++ behind) := ⟨chain, behind, hmore, hbehind, rfl⟩
          obtain ⟨-, -, hrest⟩ := (readsName_nameText segment.name).inj
            (readsName_calleePartText part) hends.endsWord (calleeRest_cases parts rest) hnames
          exact ih hmore hrest

/-! ## Lists -/

section

variable {α : Type} {follow : List Char → Prop} {P : α → Prop} {text : α → List Char}
  {xs ys : List α} {mark close : Char} {rest rest' : List Char}

/-- Behind an item there is the separator of the next one, or what stands behind the list. -/
theorem follow_flatMap (hmark : ∀ behind, follow (mark :: behind)) (hrest : follow rest)
    (zs : List α) : follow ((zs.flatMap fun z => [mark, ' '] ++ text z) ++ rest) := by
  cases zs with
  | nil => exact hrest
  | cons z zs => exact hmark _

/-- Items with a separator in front of each. -/
theorem Distinct.flatMap (hxs : ∀ x ∈ xs, Distinct follow P text x) (hys : ∀ y ∈ ys, P y)
    (hmark : ∀ behind, follow (mark :: behind)) (hrest : follow rest) (hrest' : follow rest')
    (hne : rest.head? ≠ some mark) (hne' : rest'.head? ≠ some mark)
    (h : (xs.flatMap fun x => [mark, ' '] ++ text x) ++ rest =
      (ys.flatMap fun y => [mark, ' '] ++ text y) ++ rest') : xs = ys ∧ rest = rest' := by
  induction xs generalizing ys with
  | nil =>
      cases ys with
      | nil => exact ⟨rfl, h⟩
      | cons y ys =>
          rw [List.flatMap_nil, List.nil_append] at h
          simp [h] at hne
  | cons x xs ih =>
      cases ys with
      | nil =>
          rw [List.flatMap_nil, List.nil_append] at h
          simp [← h] at hne'
      | cons y ys =>
          have htexts : text x ++ ((xs.flatMap fun x => [mark, ' '] ++ text x) ++ rest) =
              text y ++ ((ys.flatMap fun y => [mark, ' '] ++ text y) ++ rest') := by
            simpa using h
          obtain ⟨rfl, hbehind⟩ := hxs x (by simp) y _ _ (hys y (by simp))
            (follow_flatMap hmark hrest xs) (follow_flatMap hmark hrest' ys) htexts
          obtain ⟨rfl, hrests⟩ := ih (fun x hx => hxs x (by simp [hx]))
            (fun y hy => hys y (by simp [hy])) hbehind
          exact ⟨rfl, hrests⟩

/-- Items with a separator between each two. -/
theorem Distinct.intercalate (hxs : ∀ x ∈ xs, Distinct follow P text x) (hys : ∀ y ∈ ys, P y)
    (hxsNe : xs ≠ []) (hysNe : ys ≠ []) (hmark : ∀ behind, follow (mark :: behind))
    (hrest : follow rest) (hrest' : follow rest') (hne : rest.head? ≠ some mark)
    (hne' : rest'.head? ≠ some mark)
    (h : [mark, ' '].intercalate (xs.map text) ++ rest =
      [mark, ' '].intercalate (ys.map text) ++ rest') : xs = ys ∧ rest = rest' := by
  cases xs with
  | nil => exact absurd rfl hxsNe
  | cons x xs =>
      cases ys with
      | nil => exact absurd rfl hysNe
      | cons y ys =>
          rw [intercalate_map_cons, intercalate_map_cons, List.append_assoc, List.append_assoc] at h
          obtain ⟨rfl, hbehind⟩ := hxs x (by simp) y _ _ (hys y (by simp))
            (follow_flatMap hmark hrest xs) (follow_flatMap hmark hrest' ys) h
          obtain ⟨rfl, hrests⟩ := Distinct.flatMap (fun x hx => hxs x (by simp [hx]))
            (fun y hy => hys y (by simp [hy])) hmark hrest hrest' hne hne' hbehind
          exact ⟨rfl, hrests⟩

/-- Items between delimiters, with commas between each two. -/
theorem Distinct.bracketed (hxs : ∀ x ∈ xs, Distinct follow P text x) (hys : ∀ y ∈ ys, P y)
    (hstart : ∀ x ∈ xs ++ ys, ∃ c cs, text x = c :: cs ∧ c ≠ close)
    (hcomma : ∀ behind, follow (',' :: behind)) (hclose : ∀ behind, follow (close :: behind))
    (hne : close ≠ ',')
    (h : [',', ' '].intercalate (xs.map text) ++ close :: rest =
      [',', ' '].intercalate (ys.map text) ++ close :: rest') : xs = ys ∧ rest = rest' := by
  have hnonempty : ∀ zs : List α, (∀ z ∈ zs, ∃ c cs, text z = c :: cs ∧ c ≠ close) → zs ≠ [] →
      ∀ behind behind', [',', ' '].intercalate (zs.map text) ++ behind ≠ close :: behind' := by
    intro zs hzs hzsNe behind behind' heq
    cases zs with
    | nil => exact hzsNe rfl
    | cons z zs =>
        rcases hzs z (by simp) with ⟨c, cs, htext, hc⟩
        rw [intercalate_map_cons, htext] at heq
        exact hc (List.cons.inj heq).1
  by_cases hxsNe : xs = []
  · by_cases hysNe : ys = []
    · subst hxsNe hysNe
      exact ⟨rfl, by simpa using h⟩
    · subst hxsNe
      exact absurd h.symm (hnonempty ys (fun y hy => hstart y (by simp [hy])) hysNe _ _)
  · by_cases hysNe : ys = []
    · subst hysNe
      exact absurd h (hnonempty xs (fun x hx => hstart x (by simp [hx])) hxsNe _ _)
    · rcases Distinct.intercalate hxs hys hxsNe hysNe hcomma (hclose rest) (hclose rest')
        (by simpa using hne) (by simpa using hne) h with ⟨rfl, hrests⟩
      exact ⟨rfl, (List.cons.inj hrests).2⟩

end

end FormulaLint
