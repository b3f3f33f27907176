import FormulaLint.Proofs.Lexing.Ends
import FormulaLint.Proofs.Lexing.Symbols

/-!
# What stands behind a token

The first character of a token decides which kinds of tokens are looked for.  A token that was found
is found again when another text stands behind it, provided that the other text agrees with the
first one up to its own first blank, and that no quote and no bracketed name is closed in it that
was not closed before.

Main results:

- Theorem {lit}`recognise_text`, {lit}`recognise_named`, {lit}`recognise_openingBracket`,
  {lit}`recognise_slash`, {lit}`recognise_numeric` and {lit}`recognise_other`: what is found, by the
  first character.
- Theorem {lit}`recognise_standsFor`: a token is found whatever stands behind it.
-/

namespace FormulaLint

/-- The second text may stand behind a token in place of the first one. -/
structure StandsFor (behind behind' : List Char) : Prop where
  agrees : Agrees behind behind'
  closing : ∀ quote ∈ ['"', '\''], behind'.head? = some quote →
    Text.closing quote behind.tail = none → Text.closing quote behind'.tail = none
  bracket : bracketName? behind = none → bracketName? behind' = none

section

variable {behind behind' cs : List Char}

/-! ## What is found, by the first character -/

/-- A number starts with a digit or a point. -/
theorem number?_eq_none {p : Profile} {c : Char} {rest : List Char} (hdigit : c.isDigit = false)
    (hpoint : c ≠ '.') : number? p c rest = none := by
  have hcount : digitCount (c :: rest) = 0 := by simp [digitCount, hdigit]
  have hlength : mantissaLength p (c :: rest) = 0 := by
    by_cases hc : c = p.decimalChar
    · have hdrop : (c :: rest).drop (digitCount (c :: rest)) = p.decimalChar :: rest := by
        rw [hcount, List.drop_zero, hc]
      rw [mantissaLength_point hdrop, hcount]
      cases p with
      | dotDecimal => exact absurd hc hpoint
      | commaDecimal => simp [fractionLength]
    · rw [mantissaLength_no_point (by simpa [hcount] using hc), hcount]
  exact number?_eq_none_iff.mpr hlength

/-- Where a text starts, a text literal or an open one is found. -/
theorem recognise_text (p : Profile) (rest : List Char) :
    recognise p '"' rest = match Text.closing '"' rest with
      | some (content, n) => .token (.text (String.ofList content)) n
      | none => .token (.error .unterminatedText)
          (rest.takeWhile fun d => !Text.isBlank d).length := by
  have hcomment : comment? '"' rest = none := rfl
  cases hread : Text.closing '"' rest with
  | none => simp [recognise, hcomment, unterminatedComment?, textLiteral?, unterminated?, hread]
  | some read => simp [recognise, hcomment, unterminatedComment?, textLiteral?, hread]

/-- Where a name starts, a field, an identifier or an open name is found. -/
theorem recognise_named (p : Profile) {c : Char} (rest : List Char)
    (hc : c = '\'' ∨ Text.isIdentifierStart c = true) :
    recognise p c rest = match name? (c :: rest) with
      | some scope =>
          match bracketName? ((c :: rest).drop scope.length) with
          | some (name, n) => .token (.field scope.name name) (scope.length + n - 1)
          | none => .token (.identifier scope.name scope.quoted) (scope.length - 1)
      | none => .token (.error .unterminatedName)
          (rest.takeWhile fun d => !Text.isBlank d).length := by
  have hslash : c ≠ '/' := ne_of_start hc (by decide) (by decide)
  have htext : c ≠ '"' := ne_of_start hc (by decide) (by decide)
  have hbracket : c ≠ '[' := ne_of_start hc (by decide) (by decide)
  cases hname : name? (c :: rest) with
  | none =>
      have hquote : c = '\'' := by
        by_cases hquote : c = '\''
        · exact hquote
        · rcases hc with hc | hc
          · exact hc
          · simp [name?, hquote, hc] at hname
      have hnone : bracketName? (c :: rest) = none :=
        bracketName?_of_head_ne (by simpa using hbracket)
      subst hquote
      simp [recognise, comment?, unterminatedComment?, textLiteral?, unterminated?, disambiguated?,
        identifier?, hname, hnone]
  | some scope =>
      cases hinner : bracketName? ((c :: rest).drop scope.length) <;>
        simp [recognise, comment?, unterminatedComment?, textLiteral?, unterminated?, hslash, htext,
          disambiguated?, identifier?, hname, hinner]

/-- Where a bracket opens, a name of the application or the bracket is found. -/
theorem recognise_openingBracket (p : Profile) (rest : List Char) :
    recognise p '[' rest = match bracketName? ('[' :: rest) with
      | some (name, n) => .token (.global name) (n - 1)
      | none => .token (.separator (.opening .bracket)) 0 := by
  have hstart : Text.isIdentifierStart '[' = false := by decide
  have hname : name? ('[' :: rest) = none := by simp [name?, hstart]
  have hcomment : comment? '[' rest = none := rfl
  have hnumber : number? p '[' rest = none := number?_eq_none (by decide) (by decide)
  cases hinner : bracketName? ('[' :: rest) <;>
    simp [recognise, hcomment, unterminatedComment?, textLiteral?, unterminated?, disambiguated?,
      identifier?, hname, hinner, hnumber, operator?, separator?, Match.token]

/-- Where a slash stands, a comment, an open comment or the slash is found. -/
theorem recognise_slash (p : Profile) (rest : List Char) :
    recognise p '/' rest = ((comment? '/' rest).or (unterminatedComment? '/' rest)).getD
      (.token (.operator .divide) 0) := by
  cases hcomment : comment? '/' rest with
  | some found => simp [recognise, hcomment]
  | none =>
      cases hopen : unterminatedComment? '/' rest with
      | some found => simp [recognise, hcomment, hopen]
      | none =>
          have hstart : Text.isIdentifierStart '/' = false := by decide
          have hname : name? ('/' :: rest) = none := by simp [name?, hstart]
          have hinner : bracketName? ('/' :: rest) = none := bracketName?_of_head_ne (by simp)
          have hnumber : number? p '/' rest = none := number?_eq_none (by decide) (by decide)
          simp [recognise, hcomment, hopen, textLiteral?, unterminated?, disambiguated?, identifier?,
            hname, hinner, hnumber, operator?]

/-- Where a digit or a point stands, a number or the point is found. -/
theorem recognise_numeric (p : Profile) {c : Char} (rest : List Char)
    (hc : c.isDigit = true ∨ c = '.') :
    recognise p c rest = (number? p c rest).getD (.token (.operator .dot) 0) := by
  rcases hc with hc | rfl
  · cases hnumber : number? p c rest with
    | some found => exact recognise_digit hc hnumber
    | none =>
        have hle := digitCount_le_mantissaLength p (c :: rest)
        have hcount : digitCount (c :: rest) = digitCount rest + 1 := by simp [digitCount, hc]
        rw [number?_eq_none_iff.mp hnumber] at hle
        omega
  · have hstart : Text.isIdentifierStart '.' = false := by decide
    have hname : name? ('.' :: rest) = none := by simp [name?, hstart]
    have hinner : bracketName? ('.' :: rest) = none := bracketName?_of_head_ne (by simp)
    have hcomment : comment? '.' rest = none := rfl
    cases hnumber : number? p '.' rest <;>
      simp [recognise, hcomment, unterminatedComment?, textLiteral?, unterminated?, disambiguated?,
        identifier?, hname, hinner, hnumber, operator?]

/-- A character that starts neither a name nor a number nor a text, and that is no bracket, slash
or point. -/
def StartsOther (c : Char) : Prop :=
  c ≠ '\'' ∧ Text.isIdentifierStart c = false ∧ c.isDigit = false ∧ c ∉ ['"', '[', '/', '.']

/-- The first character of a text decides which kinds of tokens are looked for. -/
theorem start_cases (c : Char) :
    (c = '\'' ∨ Text.isIdentifierStart c = true) ∨ (c.isDigit = true ∨ c = '.') ∨ c = '"' ∨
      c = '[' ∨ c = '/' ∨ StartsOther c := by
  by_cases hname : c = '\'' ∨ Text.isIdentifierStart c = true
  · exact Or.inl hname
  by_cases hnumeric : c.isDigit = true ∨ c = '.'
  · exact Or.inr (Or.inl hnumeric)
  by_cases hmark : c = '"' ∨ c = '[' ∨ c = '/'
  · rcases hmark with rfl | rfl | rfl <;> simp
  · rw [not_or, Bool.not_eq_true] at hname hnumeric
    simp only [not_or] at hmark
    have hother : StartsOther c :=
      ⟨hname.1, hname.2, hnumeric.1, by simp [hmark, hnumeric.2]⟩
    simp [hother]

/-- Everywhere else, a symbol or a run of invalid characters is found. -/
theorem recognise_other (p : Profile) {c : Char} (rest : List Char) (hc : StartsOther c) :
    recognise p c rest = (symbol? p c rest).getD (invalidRun rest) := by
  rcases hc with ⟨hquote, hstart, hdigit, hother⟩
  simp only [List.mem_cons, List.not_mem_nil, or_false, not_or] at hother
  apply recognise_symbol
  simp [startsSymbol, hquote, hstart, hdigit, hother]

/-- An at sign by itself is invalid. -/
theorem recognise_at (p : Profile) (rest : List Char) : recognise p '@' rest = invalidRun rest := by
  have hother : StartsOther '@' := ⟨by decide, by decide, by decide, by decide⟩
  rw [recognise_other p rest hother]
  rfl

/-! ## Tokens -/

/-- A match of a token, by its parts. -/
theorem Match.token_eq_iff {payload payload' : Payload} {n n' : Nat} :
    Match.token payload n = ⟨.token payload', n'⟩ ↔ payload = payload' ∧ n = n' := by
  simp [Match.token]

/-- A text literal is found whatever stands behind it. -/
theorem recognise_text_standsFor {p : Profile} {payload : Payload} (h : StandsFor behind behind')
    (hclean : payload.isError = false)
    (hfound : recognise p '"' (cs ++ behind) = ⟨.token payload, cs.length⟩) :
    recognise p '"' (cs ++ behind') = ⟨.token payload, cs.length⟩ := by
  rw [recognise_text] at hfound ⊢
  cases hread : Text.closing '"' (cs ++ behind) with
  | none =>
      rw [hread] at hfound
      rcases Match.token_eq_iff.mp hfound with ⟨rfl, -⟩
      exact absurd hclean (by decide)
  | some read =>
      rcases read with ⟨content, n⟩
      rw [hread] at hfound
      have hcount : n = cs.length := (Match.token_eq_iff.mp hfound).2
      subst hcount
      rw [closing_append (by decide) h.agrees.head (h.closing '"' (by simp)) hread]
      exact hfound

/-- A field is found whatever stands behind it. -/
theorem field_append (behind' : List Char) {c : Char} {scope : NameMatch} {name : String} {n : Nat}
    (hname : name? (c :: (cs ++ behind)) = some scope)
    (hinner : bracketName? ((c :: (cs ++ behind)).drop scope.length) = some (name, n))
    (hcount : scope.length + n - 1 = cs.length) :
    name? (c :: (cs ++ behind')) = some scope ∧
      bracketName? ((c :: (cs ++ behind')).drop scope.length) = some (name, n) := by
  have hpos := (name?_length_le hname).1
  rcases exists_of_bracketName? hinner with ⟨d, inside, rest, m, htext, -, -, -, hn⟩
  -- the field is the scope and the bracketed name behind it
  have hsplit : ∀ more : List Char, (c :: (cs ++ more)).drop scope.length =
      cs.drop (scope.length - 1) ++ more := by
    intro more
    rw [← List.cons_append, List.drop_append_of_le_length (by rw [List.length_cons]; omega),
      ← Nat.sub_add_cancel hpos, List.drop_succ_cons, Nat.add_sub_cancel]
  have hwhole : cs.take (scope.length - 1) ++ cs.drop (scope.length - 1) = cs :=
    List.take_append_drop ..
  have hlength : (cs.drop (scope.length - 1)).length = n := by
    rw [List.length_drop]
    omega
  have hlength' : scope.length = (cs.take (scope.length - 1)).length + 1 := by
    rw [List.length_take]
    omega
  rw [hsplit] at hinner htext
  cases hfront : cs.drop (scope.length - 1) with
  | nil =>
      rw [hfront] at hlength
      simp only [List.length_nil] at hlength
      omega
  | cons b front =>
      rw [hfront] at hinner htext hlength hwhole
      have hbracket : b = '[' := (List.cons.inj htext).1
      have hscope := name?_append (cs.take (scope.length - 1)) (b :: front ++ behind)
        (b :: front ++ behind') (Or.inl rfl) (by simp [hbracket]) hlength'
        (by rw [← List.append_assoc, hwhole, hname])
      rw [← List.append_assoc, hwhole] at hscope
      rw [← hlength] at hinner ⊢
      rw [hsplit, hfront]
      exact ⟨hscope, bracketName?_append hinner⟩

/-- A name is found whatever stands behind it. -/
theorem recognise_named_standsFor {p : Profile} {c : Char} {payload : Payload}
    (hc : c = '\'' ∨ Text.isIdentifierStart c = true) (h : StandsFor behind behind')
    (hclean : payload.isError = false)
    (hfound : recognise p c (cs ++ behind) = ⟨.token payload, cs.length⟩) :
    recognise p c (cs ++ behind') = ⟨.token payload, cs.length⟩ := by
  rw [recognise_named p _ hc] at hfound ⊢
  cases hname : name? (c :: (cs ++ behind)) with
  | none =>
      rw [hname] at hfound
      rcases Match.token_eq_iff.mp hfound with ⟨rfl, -⟩
      exact absurd hclean (by decide)
  | some scope =>
      rw [hname] at hfound
      dsimp only at hfound
      have hpos := (name?_length_le hname).1
      cases hinner : bracketName? ((c :: (cs ++ behind)).drop scope.length) with
      | none =>
          rw [hinner] at hfound
          have hlength : scope.length = cs.length + 1 := by
            have hcount := (Match.token_eq_iff.mp hfound).2
            omega
          have hdrop : ∀ rest : List Char, (c :: (cs ++ rest)).drop scope.length = rest := by
            intro rest
            rw [hlength, List.drop_succ_cons, List.drop_left]
          rw [hdrop] at hinner
          rw [name?_append cs behind behind' h.agrees.head (h.closing '\'' (by simp)) hlength hname]
          dsimp only
          rw [hdrop, h.bracket hinner]
          exact hfound
      | some read =>
          rw [hinner] at hfound
          have hfield := field_append behind' hname hinner
            (Match.token_eq_iff.mp hfound).2
          rw [hfield.1]
          dsimp only
          rw [hfield.2]
          exact hfound

/-- A number or a point is found whatever stands behind it. -/
theorem recognise_numeric_agrees {p : Profile} {c : Char} {item : Item}
    (hc : c.isDigit = true ∨ c = '.') (h : Agrees behind behind')
    (hfound : recognise p c (cs ++ behind) = ⟨item, cs.length⟩) :
    recognise p c (cs ++ behind') = ⟨item, cs.length⟩ := by
  rw [recognise_numeric p _ hc] at hfound ⊢
  cases hnumber : number? p c (cs ++ behind) with
  | none =>
      rw [hnumber] at hfound
      rw [number?_none_agrees h hnumber]
      exact hfound
  | some found =>
      rw [hnumber, Option.getD_some] at hfound
      subst hfound
      rw [number?_agrees h hnumber]
      rfl

/-- A slash starts a comment, open or not, in front of a star or another slash. -/
theorem comment?_or_eq_none_iff {rest : List Char} :
    (comment? '/' rest).or (unterminatedComment? '/' rest) = none ↔
      rest.head? ≠ some '*' ∧ rest.head? ≠ some '/' := by
  cases rest with
  | nil => simp [comment?, unterminatedComment?]
  | cons d rest =>
      by_cases hstar : d = '*'
      · simp [unterminatedComment?, hstar]
      · by_cases hslash : d = '/'
        · simp [comment?, hslash]
        · simp [comment?, unterminatedComment?, hstar, hslash]

/-- A comment is no token. -/
theorem item_of_comment? {c : Char} {rest : List Char} {found : Match}
    (h : comment? c rest = some found) : found.item = .comment := by
  unfold comment? at h
  split at h
  · split at h
    · rcases Option.map_eq_some_iff.mp h with ⟨n, -, rfl⟩
      rfl
    · rcases Option.some.inj h with rfl
      rfl
    · simp at h
  · simp at h

/-- An open comment is an error. -/
theorem item_of_unterminatedComment? {c : Char} {rest : List Char} {found : Match}
    (h : unterminatedComment? c rest = some found) :
    found.item = .token (.error .unterminatedComment) := by
  unfold unterminatedComment? at h
  split at h
  · rcases Option.some.inj h with rfl
    rfl
  · simp at h

/-- A slash is found whatever stands behind it. -/
theorem recognise_slash_agrees {p : Profile} {payload : Payload} (h : Agrees behind behind')
    (hclean : payload.isError = false)
    (hfound : recognise p '/' (cs ++ behind) = ⟨.token payload, cs.length⟩) :
    recognise p '/' (cs ++ behind') = ⟨.token payload, cs.length⟩ := by
  rw [recognise_slash] at hfound ⊢
  cases hcomment : (comment? '/' (cs ++ behind)).or (unterminatedComment? '/' (cs ++ behind)) with
  | none =>
      rw [hcomment] at hfound
      have hempty : cs = [] := by
        have hcount := (Match.token_eq_iff.mp hfound).2
        exact List.length_eq_zero_iff.mp hcount.symm
      subst hempty
      have hnext := comment?_or_eq_none_iff.mp hcomment
      have hnext' : (comment? '/' behind').or (unterminatedComment? '/' behind') = none :=
        comment?_or_eq_none_iff.mpr
          ⟨fun hstar => hnext.1 (h.head_eq (by decide) hstar),
            fun hslash => hnext.2 (h.head_eq (by decide) hslash)⟩
      rw [List.nil_append, hnext']
      exact hfound
  | some found =>
      rw [hcomment, Option.getD_some] at hfound
      subst hfound
      rcases Option.or_eq_some_iff.mp hcomment with hclosed | ⟨-, hopen⟩
      · exact absurd (item_of_comment? hclosed) (by simp)
      · have herror := item_of_unterminatedComment? hopen
        rcases Item.token.inj herror with rfl
        exact absurd hclean (by decide)

/-- A bracket or a name of the application is found whatever stands behind it. -/
theorem recognise_openingBracket_append {p : Profile} {item : Item}
    (hbracket : bracketName? ('[' :: (cs ++ behind)) = none →
      bracketName? ('[' :: (cs ++ behind')) = none)
    (hfound : recognise p '[' (cs ++ behind) = ⟨item, cs.length⟩) :
    recognise p '[' (cs ++ behind') = ⟨item, cs.length⟩ := by
  rw [recognise_openingBracket] at hfound ⊢
  cases hinner : bracketName? ('[' :: (cs ++ behind)) with
  | none =>
      rw [hinner] at hfound
      rw [hbracket hinner]
      exact hfound
  | some read =>
      rcases read with ⟨name, n⟩
      rw [hinner] at hfound
      rcases exists_of_bracketName? hinner with ⟨c, front, rest, m, -, -, -, -, hn⟩
      have hcount : n = ('[' :: cs).length := by
        have hextra : n - 1 = cs.length := congrArg Match.extra hfound
        rw [List.length_cons]
        omega
      subst hcount
      rw [← List.cons_append] at hinner ⊢
      rw [bracketName?_append hinner]
      exact hfound

/-- A token is found whatever stands behind it, provided that the text behind it may stand there
and that no bracketed name appears where none was. -/
theorem recognise_standsFor {p : Profile} {c : Char} {payload : Payload}
    (h : StandsFor behind behind')
    (hbracket : bracketName? (c :: (cs ++ behind)) = none →
      bracketName? (c :: (cs ++ behind')) = none)
    (hclean : payload.isError = false)
    (hfound : recognise p c (cs ++ behind) = ⟨.token payload, cs.length⟩) :
    recognise p c (cs ++ behind') = ⟨.token payload, cs.length⟩ := by
  rcases start_cases c with hname | hnumeric | rfl | rfl | rfl | hother
  · exact recognise_named_standsFor hname h hclean hfound
  · exact recognise_numeric_agrees hnumeric h.agrees hfound
  · exact recognise_text_standsFor h hclean hfound
  · exact recognise_openingBracket_append hbracket hfound
  · exact recognise_slash_agrees h.agrees hclean hfound
  rw [recognise_other p _ hother] at hfound ⊢
  cases hsymbol : symbol? p c (cs ++ behind) with
  | none =>
      rw [hsymbol] at hfound
      rcases Match.token_eq_iff.mp hfound with ⟨rfl, -⟩
      exact absurd hclean (by decide)
  | some found =>
      rw [hsymbol, Option.getD_some] at hfound
      subst hfound
      rw [symbol?_agrees h.agrees hsymbol]
      rfl

/-! ## Comments -/

/-- A symbol is a token. -/
theorem item_of_symbol? {p : Profile} {c : Char} {rest : List Char} {found : Match}
    (h : symbol? p c rest = some found) : ∃ payload, found.item = .token payload := by
  rcases Option.or_eq_some_iff.mp h with hoperator | ⟨-, hseparator⟩
  · simp only [operator?, Match.token] at hoperator
    repeat' split at hoperator
    all_goals cases hoperator
    all_goals exact ⟨_, rfl⟩
  · simp only [separator?, Match.token] at hseparator
    repeat' split at hseparator
    all_goals cases hseparator
    all_goals exact ⟨_, rfl⟩

/-- Comments start with a slash. -/
theorem comment?_of_recognise {p : Profile} {c : Char} {rest : List Char} {n : Nat}
    (h : recognise p c rest = ⟨.comment, n⟩) :
    c = '/' ∧ comment? '/' rest = some ⟨.comment, n⟩ := by
  have hnot : ∀ {payload : Payload} {k : Nat}, Match.token payload k ≠ ⟨.comment, n⟩ := by
    intro payload k heq
    simp [Match.token] at heq
  rcases start_cases c with hname | hnumeric | rfl | rfl | rfl | hother
  · rw [recognise_named p rest hname] at h
    repeat' split at h
    all_goals exact absurd h hnot
  · rw [recognise_numeric p rest hnumeric] at h
    cases hnumber : number? p c rest with
    | none =>
        rw [hnumber] at h
        exact absurd h hnot
    | some found =>
        rw [hnumber, Option.getD_some] at h
        subst h
        exact absurd (number?_eq_some_iff.mp hnumber).2.2 (by simp)
  · rw [recognise_text] at h
    repeat' split at h
    all_goals exact absurd h hnot
  · rw [recognise_openingBracket] at h
    repeat' split at h
    all_goals exact absurd h hnot
  · rw [recognise_slash] at h
    cases hcomment : comment? '/' rest with
    | some found =>
        rw [hcomment, Option.some_or, Option.getD_some] at h
        exact ⟨rfl, congrArg some h⟩
    | none =>
        rw [hcomment, Option.none_or] at h
        cases hopen : unterminatedComment? '/' rest with
        | none =>
            rw [hopen] at h
            exact absurd h hnot
        | some found =>
            have herror := item_of_unterminatedComment? hopen
            rw [hopen, Option.getD_some] at h
            simp [h] at herror
  · rw [recognise_other p rest hother] at h
    cases hsymbol : symbol? p c rest with
    | none =>
        rw [hsymbol] at h
        exact absurd h hnot
    | some found =>
        rcases item_of_symbol? hsymbol with ⟨payload, hitem⟩
        rw [hsymbol, Option.getD_some] at h
        simp [h] at hitem

/-! ## Reading on -/

/-- A block comment ends in the text. -/
theorem blockCommentLength?_le {body : List Char} {n : Nat} (h : blockCommentLength? body = some n) :
    n ≤ body.length := by
  induction body generalizing n with
  | nil => simp [blockCommentLength?] at h
  | cons c rest ih =>
      rw [blockCommentLength?] at h
      split at h
      · rename_i hend
        rcases Option.some.inj h with rfl
        cases rest with
        | nil => simp at hend
        | cons d rest => simp
      · rcases Option.map_eq_some_iff.mp h with ⟨k, hk, rfl⟩
        exact Nat.succ_le_succ (ih hk)

/-- A line comment ends in the text. -/
theorem lineCommentLength_le (body : List Char) : lineCommentLength body ≤ body.length := by
  fun_induction lineCommentLength body <;> simp_all

/-- Digits are no more than there are characters. -/
theorem digitCount_le (text : List Char) : digitCount text ≤ text.length :=
  (List.takeWhile_prefix _).length_le

/-- A mantissa is no longer than the text. -/
theorem mantissaLength_le (p : Profile) (text : List Char) :
    mantissaLength p text ≤ text.length := by
  have hwhole := digitCount_le text
  by_cases hpoint : (text.drop (digitCount text)).head? = some p.decimalChar
  · rcases List.head?_eq_some_iff.mp hpoint with ⟨rest, hrest⟩
    have hlength := congrArg List.length hrest
    rw [List.length_drop, List.length_cons] at hlength
    have hfraction := digitCount_le rest
    rw [mantissaLength_point hrest]
    rcases fractionLength_cases p (digitCount text) (digitCount rest)
      with hzero | hnone | ⟨-, hboth⟩ <;> omega
  · rwa [mantissaLength_no_point hpoint]

/-- An exponent is no longer than the text. -/
theorem exponentLength_le (text : List Char) : exponentLength text ≤ text.length := by
  cases text with
  | nil => exact Nat.le_refl 0
  | cons mark rest =>
      by_cases hmark : mark = 'e' ∨ mark = 'E'
      · rcases exponentLength_cons hmark rest with ⟨sign, -, hlength⟩
        have hdigits := digitCount_le (rest.drop sign)
        rw [List.length_drop] at hdigits
        rw [hlength, List.length_cons]
        split <;> omega
      · simp [exponentLength, hmark]

/-- A symbol is no longer than the text. -/
theorem symbol?_extra_le {p : Profile} {c : Char} {rest : List Char} {found : Match}
    (h : symbol? p c rest = some found) : found.extra ≤ rest.length := by
  have hlong : ∀ d, rest.head? = some d → 1 ≤ rest.length := by
    intro d hd
    rcases List.head?_eq_some_iff.mp hd with ⟨behind, rfl⟩
    simp
  rcases Option.or_eq_some_iff.mp h with hoperator | ⟨-, hseparator⟩
  · simp only [operator?, Match.token] at hoperator
    repeat' split at hoperator
    all_goals cases hoperator
    all_goals first
      | exact Nat.zero_le _
      | exact hlong _ ‹_›
  · simp only [separator?, Match.token] at hseparator
    repeat' split at hseparator
    all_goals cases hseparator
    all_goals first
      | exact Nat.zero_le _
      | exact hlong _ ‹_›

/-- A comment is no longer than the text. -/
theorem comment?_extra_le {c : Char} {rest : List Char} {found : Match}
    (h : (comment? c rest).or (unterminatedComment? c rest) = some found) :
    found.extra ≤ rest.length := by
  rcases Option.or_eq_some_iff.mp h with hclosed | ⟨-, hopen⟩
  · unfold comment? at hclosed
    split at hclosed
    · split at hclosed
      · rcases Option.map_eq_some_iff.mp hclosed with ⟨n, hn, rfl⟩
        exact Nat.succ_le_succ (blockCommentLength?_le hn)
      · rcases Option.some.inj hclosed with rfl
        exact Nat.succ_le_succ (lineCommentLength_le _)
      · simp at hclosed
    · simp at hclosed
  · unfold unterminatedComment? at hopen
    split at hopen
    · rcases Option.some.inj hopen with rfl
      exact (List.takeWhile_prefix _).length_le
    · simp at hopen

/-- What is found takes no more characters than there are. -/
theorem recognise_extra_le (p : Profile) (c : Char) (rest : List Char) :
    (recognise p c rest).extra ≤ rest.length := by
  have hrun : ∀ accepts : Char → Bool, (rest.takeWhile accepts).length ≤ rest.length :=
    fun accepts => (List.takeWhile_prefix accepts).length_le
  rcases start_cases c with hname | hnumeric | rfl | rfl | rfl | hother
  · rw [recognise_named p rest hname]
    cases hscope : name? (c :: rest) with
    | none => exact hrun _
    | some scope =>
        have hlength := (name?_length_le hscope).2
        rw [List.length_cons] at hlength
        dsimp only
        cases hinner : bracketName? ((c :: rest).drop scope.length) with
        | none => exact Nat.sub_le_of_le_add hlength
        | some read =>
            have hle := bracketName?_length_le hinner
            rw [List.length_drop, List.length_cons] at hle
            exact Nat.sub_le_of_le_add (by omega)
  · rw [recognise_numeric p rest hnumeric]
    cases hnumber : number? p c rest with
    | none => exact Nat.zero_le _
    | some found =>
        have hcount := (number?_eq_some_iff.mp hnumber).2.1
        have hmantissa := mantissaLength_le p (c :: rest)
        have hexponent := exponentLength_le ((c :: rest).drop (mantissaLength p (c :: rest)))
        rw [List.length_drop, List.length_cons] at hexponent
        rw [List.length_cons] at hmantissa
        rw [Option.getD_some]
        omega
  · rw [recognise_text]
    cases hread : Text.closing '"' rest with
    | none => exact hrun _
    | some read => exact extra_closing_le hread
  · rw [recognise_openingBracket]
    cases hinner : bracketName? ('[' :: rest) with
    | none => exact Nat.zero_le _
    | some read => exact Nat.sub_le_of_le_add (bracketName?_length_le hinner)
  · rw [recognise_slash]
    cases hcomment : (comment? '/' rest).or (unterminatedComment? '/' rest) with
    | none => exact Nat.zero_le _
    | some found => exact comment?_extra_le hcomment
  · rw [recognise_other p rest hother]
    cases hsymbol : symbol? p c rest with
    | none => exact hrun _
    | some found => exact symbol?_extra_le hsymbol

/-- A text is read piece by piece. -/
theorem pieces_induct (p : Profile) {motive : List Char → Prop} (nil : motive [])
    (blank : ∀ c rest, Text.isBlank c = true → motive rest → motive (c :: rest))
    (found : ∀ c cs behind item, Text.isBlank c = false →
      recognise p c (cs ++ behind) = ⟨item, cs.length⟩ → motive behind →
      motive (c :: (cs ++ behind))) (text : List Char) : motive text := by
  match text with
  | [] => exact nil
  | c :: rest =>
      by_cases hblank : Text.isBlank c = true
      · exact blank c rest hblank (pieces_induct p nil blank found rest)
      · have hsplit := List.take_append_drop (recognise p c rest).extra rest
        have hlength : (rest.take (recognise p c rest).extra).length =
            (recognise p c rest).extra := by
          have hle := recognise_extra_le p c rest
          rw [List.length_take]
          omega
        have hmotive := found c (rest.take (recognise p c rest).extra)
          (rest.drop (recognise p c rest).extra) (recognise p c rest).item (by simpa using hblank)
          (by rw [hsplit, hlength])
          (pieces_induct p nil blank found (rest.drop (recognise p c rest).extra))
        rwa [hsplit] at hmotive
termination_by text.length
decreasing_by
  · simp
  · simp only [List.length_drop, List.length_cons]
    omega

end

end FormulaLint
