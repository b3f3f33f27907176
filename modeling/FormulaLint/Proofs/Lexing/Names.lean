import FormulaLint.Proofs.Lexing.Items

/-!
# Reading names, words and texts

A name is read back from what is written for it, and so is a text.  A word for an operator is an
operator between blanks, and a name in front of a point or a parenthesis.

Main results:

- Theorem {lit}`name?_nameText`: the name at the start of a text.
- Theorem {lit}`Lexes.name`: a name is read as itself.
- Theorem {lit}`Lexes.word`: a word between blanks is read as its operator.
- Theorem {lit}`Lexes.calleePart`: a part of a function name is read as a name.
-/

namespace FormulaLint

/-! ## Characters around names -/

/-- The character behind a name does not continue it. -/
def EndsWord (next : Option Char) : Prop :=
  ∀ c, next = some c → continuesName c = false ∧ c ≠ '\''

/-- The character behind a name neither continues it nor starts a bracket. -/
def EndsName (next : Option Char) : Prop :=
  EndsWord next ∧ next ≠ some '['

/-- A character that ends names. -/
theorem endsWord_some {d : Char} (hd : continuesName d = false) (hquote : d ≠ '\'') :
    EndsWord (some d) := by
  intro c hc
  have hcd : d = c := by simpa using hc
  subst hcd
  exact ⟨hd, hquote⟩

/-- A character that ends names and starts no bracket. -/
theorem endsName_some {d : Char} (hd : continuesName d = false) (hquote : d ≠ '\'')
    (hbracket : d ≠ '[') : EndsName (some d) :=
  ⟨endsWord_some hd hquote, by simpa using hbracket⟩

/-- A name starts with no character that starts something else. -/
theorem ne_of_isIdentifierStart {c d : Char} (hc : Text.isIdentifierStart c = true)
    (hd : Text.isIdentifierStart d = false) : c ≠ d := by
  rintro rfl
  simp [hc] at hd

/-- What starts a name, quoted or not, starts nothing else. -/
theorem ne_of_start {c d : Char} (hc : c = '\'' ∨ Text.isIdentifierStart c = true)
    (hquote : d ≠ '\'') (hd : Text.isIdentifierStart d = false) : c ≠ d := by
  rcases hc with rfl | hc
  · exact hquote.symm
  · exact ne_of_isIdentifierStart hc hd

/-- The first characters that take as many as they can. -/
theorem takeWhile_append_of_stop {accepts : Char → Bool} {cs rest : List Char}
    (hcs : cs.all accepts = true) (hrest : ∀ c, rest.head? = some c → accepts c = false) :
    (cs ++ rest).takeWhile accepts = cs := by
  induction cs with
  | nil =>
      rcases rest with _ | ⟨c, rest⟩
      · rfl
      · exact List.takeWhile_cons_of_neg (by simp [hrest c rfl])
  | cons d cs ih =>
      rw [List.all_cons, Bool.and_eq_true] at hcs
      rw [List.cons_append, List.takeWhile_cons_of_pos hcs.1, ih hcs.2]

/-! ## Names at the start of a text -/

section

variable {p : Profile} {rest : List Char}

/-- A plain name. -/
theorem name?_plain {c : Char} {cs : List Char} (hc : Text.isIdentifierStart c = true)
    (hcs : cs.all continuesName = true) (hrest : EndsWord rest.head?) :
    name? (c :: (cs ++ rest)) = some ⟨String.ofList (c :: cs), false, cs.length + 1⟩ := by
  have hquote : c ≠ '\'' := ne_of_isIdentifierStart hc (by decide)
  have htake := takeWhile_append_of_stop hcs fun d hd => (hrest d hd).1
  simp [name?, hquote, hc, htake]

/-- A quoted name. -/
theorem name?_enclose (cs : List Char) (hrest : EndsWord rest.head?) :
    name? (Text.enclose '\'' cs ++ rest) =
      some ⟨String.ofList cs, true, (Text.enclose '\'' cs).length⟩ := by
  have hhead : rest.head? ≠ some '\'' := fun h => (hrest _ h).2 rfl
  have hclosing := Text.closing_double_append cs rest hhead
  simp [name?, Text.enclose, hclosing]

/-- A name by its characters is read as a plain name. -/
theorem chars_of_isIdentifier {name : String} (h : isIdentifier name.toList = true) :
    ∃ c cs, name.toList = c :: cs ∧ Text.isIdentifierStart c = true ∧
      cs.all continuesName = true := by
  cases hchars : name.toList with
  | nil => simp [hchars, isIdentifier] at h
  | cons c cs =>
      simp only [hchars, isIdentifier, Bool.and_eq_true] at h
      refine ⟨c, cs, rfl, h.1, List.all_eq_true.mpr ?_⟩
      intro d hd
      simp [continuesName, List.all_eq_true.mp h.2 d hd]

/-- A name that needs no quotes is one by its characters. -/
theorem isIdentifier_of_not_needsQuotes {name : String} (h : needsQuotes name = false) :
    isIdentifier name.toList = true := by
  by_cases hname : isIdentifier name.toList = true
  · exact hname
  · simp [needsQuotes, hname] at h

/-- A name that needs no quotes is no reserved one. -/
theorem not_reserved_of_not_needsQuotes {name : String} (h : needsQuotes name = false) :
    name ∉ reservedNames := by
  intro hmem
  simp [needsQuotes, hmem] at h

/-- The name at the start of a text is the one that was written. -/
theorem name?_nameText (name : String) (hrest : EndsWord rest.head?) :
    name? (nameText name ++ rest) = some ⟨name, needsQuotes name, (nameText name).length⟩ := by
  by_cases hquotes : needsQuotes name = true
  · simp [nameText, hquotes, name?_enclose _ hrest]
  · have hplain : needsQuotes name = false := by simpa using hquotes
    rcases chars_of_isIdentifier (isIdentifier_of_not_needsQuotes hplain)
      with ⟨c, cs, hchars, hc, hcs⟩
    have hname : String.ofList (c :: cs) = name := by rw [← hchars, String.ofList_toList]
    simp [nameText, hplain, hchars, name?_plain hc hcs hrest, hname]

/-- What is written for a name starts with a quote or with a character that starts names. -/
theorem nameText_eq_cons (name : String) : ∃ c cs, nameText name = c :: cs ∧
    (c = '\'' ∨ Text.isIdentifierStart c = true) := by
  by_cases hquotes : needsQuotes name = true
  · have htext : nameText name = '\'' :: (Text.double '\'' name.toList ++ ['\'']) := by
      simp [nameText, hquotes, Text.enclose]
    exact ⟨_, _, htext, Or.inl rfl⟩
  · have hplain : needsQuotes name = false := by simpa using hquotes
    rcases chars_of_isIdentifier (isIdentifier_of_not_needsQuotes hplain)
      with ⟨c, cs, hchars, hc, -⟩
    exact ⟨c, cs, by simp [nameText, hplain, hchars], Or.inr hc⟩

/-- The name between brackets. -/
theorem bracketName?_nameText (name : String) (rest : List Char) :
    bracketName? ('[' :: '@' :: (nameText name ++ ']' :: rest)) =
      some (name, (nameText name).length + 3) := by
  have hends : EndsWord (']' :: rest).head? := endsWord_some (by decide) (by decide)
  simp [bracketName?, name?_nameText name hends]

/-! ## Names, words and texts as tokens -/

/-- A bracketed name starts with a bracket. -/
theorem bracketName?_of_head_ne {text : List Char} (h : text.head? ≠ some '[') :
    bracketName? text = none := by
  unfold bracketName?
  split
  · simp at h
  · rfl

/-- A name that is found at the start of a text is its first token. -/
theorem recognise_name {c : Char} {cs : List Char} {name : String} {quoted : Bool}
    (hc : c = '\'' ∨ Text.isIdentifierStart c = true)
    (hname : name? (c :: (cs ++ rest)) = some ⟨name, quoted, cs.length + 1⟩)
    (hrest : rest.head? ≠ some '[') :
    recognise p c (cs ++ rest) = ⟨.token (.identifier name quoted), cs.length⟩ := by
  have hslash : c ≠ '/' := ne_of_start hc (by decide) (by decide)
  have htext : c ≠ '"' := ne_of_start hc (by decide) (by decide)
  have hbracket : bracketName? rest = none := bracketName?_of_head_ne hrest
  have hdrop : (c :: (cs ++ rest)).drop (cs.length + 1) = rest := by simp
  have hscoped : disambiguated? c (cs ++ rest) = none := by
    simp only [disambiguated?, hname, hdrop, hbracket, Option.map_none]
  simp [recognise, comment?, unterminatedComment?, textLiteral?, unterminated?, hslash, htext,
    hscoped, identifier?, hname, Match.token]

/-- The ranges of the blanks. -/
def blankRanges : Text.CharRanges :=
  [(0x09, 0x0D), (0x1C, 0x20), (0x85, 0x85), (0xA0, 0xA0), (0x1680, 0x1680), (0x2000, 0x200A),
   (0x2028, 0x2028), (0x2029, 0x2029), (0x202F, 0x202F), (0x205F, 0x205F), (0x3000, 0x3000)]

/-- Every blank lies in one of the ranges. -/
theorem exists_of_isBlank {c : Char} (h : Text.isBlank c = true) :
    ∃ range ∈ blankRanges, range.1 ≤ c.toNat ∧ c.toNat ≤ range.2 := by
  simp only [Text.isBlank, Bool.or_eq_true, Bool.and_eq_true, decide_eq_true_eq, beq_iff_eq] at h
  simp only [blankRanges, List.mem_cons, List.not_mem_nil, or_false, exists_eq_or_imp,
    exists_eq_left]
  omega

/-- No character that starts a name is blank. -/
theorem not_blank_of_start {c : Char} (hc : c = '\'' ∨ Text.isIdentifierStart c = true) :
    Text.isBlank c = false := by
  rcases hc with rfl | hc
  · decide
  · by_cases hblank : Text.isBlank c = true
    · have hapart : ∀ blanks ∈ blankRanges, ∀ range ∈ Text.identifierStartRanges,
          range.2 < blanks.1 ∨ blanks.2 < range.1 := by decide +kernel
      rcases exists_of_isBlank hblank with ⟨blanks, hblanks, hlow, hhigh⟩
      rcases Text.CharRanges.exists_of_contains hc with ⟨range, hrange, hlow', hhigh'⟩
      have hdisjoint := hapart blanks hblanks range hrange
      omega
    · simpa using hblank

/-- What a word stands for when it is neither reserved nor a word for an operator. -/
theorem wordPayload_of_not_reserved {name : String} (h : name ∉ reservedNames)
    (delimited : Bool) : wordPayload name delimited = .identifier name false := by
  simp only [reservedNames, operatorWords, List.cons_append, List.nil_append, List.mem_cons,
    List.not_mem_nil, or_false, not_or] at h
  simp [wordPayload, Operator.ofWord?, h]

/-- A name is read as itself. -/
theorem Lexes.name (name : String) :
    Lexes p EndsName (nameText name) [.identifier name (needsQuotes name)] := by
  rcases nameText_eq_cons name with ⟨c, cs, htext, hc⟩
  rw [htext]
  apply Lexes.single (.identifier name (needsQuotes name)) (not_blank_of_start hc) _ _ rfl
  · intro rest hrest
    have hname := name?_nameText name hrest.1
    rw [htext] at hname
    exact recognise_name hc hname hrest.2
  · intro before next _
    by_cases hquotes : needsQuotes name = true
    · rw [hquotes]
      rfl
    · have hplain : needsQuotes name = false := by simpa using hquotes
      rw [hplain]
      exact congrArg Item.token
        (wordPayload_of_not_reserved (not_reserved_of_not_needsQuotes hplain) _)

/-- A name of the application as a whole. -/
theorem Lexes.global (name : String) :
    Lexes p anything ('[' :: '@' :: (nameText name ++ [']'])) [.global name] := by
  apply Lexes.single (.global name) (by decide) _ (fun _ _ _ => rfl) rfl
  intro rest _
  have hbracket := bracketName?_nameText name rest
  have hname : name? ('[' :: '@' :: (nameText name ++ ']' :: rest)) = none := by
    have hstart : Text.isIdentifierStart '[' = false := by decide
    simp [name?, hstart]
  have hscoped : disambiguated? '[' ('@' :: (nameText name ++ ']' :: rest)) =
      some (.token (.global name) ((nameText name).length + 2)) := by
    simp [disambiguated?, hname, hbracket]
  have hcomment : comment? '[' ('@' :: (nameText name ++ ']' :: rest)) = none := rfl
  simp [recognise, hcomment, unterminatedComment?, textLiteral?, unterminated?, hscoped,
    Match.token]

/-- A field of a named source. -/
theorem Lexes.field (source name : String) :
    Lexes p anything (nameText source ++ '[' :: '@' :: (nameText name ++ [']']))
      [.field source name] := by
  rcases nameText_eq_cons source with ⟨c, cs, htext, hc⟩
  rw [htext]
  apply Lexes.single (.field source name) (not_blank_of_start hc) _ (fun _ _ _ => rfl) rfl
  intro rest _
  have hslash : c ≠ '/' := ne_of_start hc (by decide) (by decide)
  have hquote : c ≠ '"' := ne_of_start hc (by decide) (by decide)
  have hbracket := bracketName?_nameText name rest
  have hends : EndsWord ('[' :: '@' :: (nameText name ++ ']' :: rest)).head? :=
    endsWord_some (by decide) (by decide)
  have hname := name?_nameText source hends
  rw [htext] at hname
  have hscoped : disambiguated? c (cs ++ '[' :: '@' :: (nameText name ++ ']' :: rest)) =
      some (.token (.field source name) (cs.length + (nameText name).length + 3)) := by
    have hdrop : (c :: (cs ++ '[' :: '@' :: (nameText name ++ ']' :: rest))).drop
        (c :: cs).length = '[' :: '@' :: (nameText name ++ ']' :: rest) := by simp
    rw [List.cons_append] at hname
    simp only [disambiguated?, hname]
    rw [hdrop, hbracket, Option.map_some, List.length_cons]
    congr 2
    omega
  simp [recognise, comment?, unterminatedComment?, textLiteral?, unterminated?, hslash, hquote,
    hscoped, Match.token]
  omega

/-- A written text is recognised in front of anything but a quote. -/
theorem recognise_quotedText (value : String) (hrest : rest.head? ≠ some '"') :
    recognise p '"' ((Text.double '"' value.toList ++ ['"']) ++ rest) =
      ⟨.token (.text value), (Text.double '"' value.toList ++ ['"']).length⟩ := by
  have hclosing := Text.closing_double_append value.toList rest hrest
  have hcomment : comment? '"' (Text.double '"' value.toList ++ '"' :: rest) = none := rfl
  simp [recognise, hcomment, unterminatedComment?, textLiteral?, hclosing, Match.token]

/-- A text is read as itself. -/
theorem Lexes.text (value : String) :
    Lexes p (fun next => next ≠ some '"') (quotedText value) [.text value] := by
  apply Lexes.single (.text value) (by decide) _ (fun _ _ _ => rfl) rfl
  intro rest hrest
  exact recognise_quotedText value hrest

/-- A logical value is read as itself. -/
theorem Lexes.logical (value : Bool) :
    Lexes p EndsName (if value then "true" else "false").toList [.logical value] := by
  cases value with
  | true =>
      apply Lexes.single (.identifier "true" false) (by decide) _ _ rfl
      · intro rest hrest
        exact recognise_name (Or.inr (by decide)) (name?_plain (by decide) (by decide) hrest.1)
          hrest.2
      · intro before next _
        rfl
  | false =>
      apply Lexes.single (.identifier "false" false) (by decide) _ _ rfl
      · intro rest hrest
        exact recognise_name (Or.inr (by decide)) (name?_plain (by decide) (by decide) hrest.1)
          hrest.2
      · intro before next _
        rfl

/-- A word for an operator is a name by its characters. -/
theorem isIdentifier_of_operatorWord {word : String} (h : word ∈ operatorWords) :
    isIdentifier word.toList = true := by
  have hwords : ∀ w ∈ operatorWords, isIdentifier w.toList = true := by decide
  exact hwords word h

/-- A word that stands for an operator is one of the listed words. -/
theorem mem_operatorWords_of_ofWord? {word : String} {op : Operator}
    (h : Operator.ofWord? word = some op) : word ∈ operatorWords := by
  unfold Operator.ofWord? at h
  repeat' split at h
  all_goals simp_all [operatorWords]

/-- A word between blanks is read as its operator. -/
theorem Lexes.word {follow : Option Char → Prop} {word : String} {op : Operator}
    {text : List Char} {payloads : List Payload} (hword : Operator.ofWord? word = some op)
    (h : Lexes p follow text payloads) :
    Lexes p follow (word.toList ++ ' ' :: text) (.operator op :: payloads) where
  items_eq before rest hbefore hrest := by
    have hmem := mem_operatorWords_of_ofWord? hword
    rcases chars_of_isIdentifier (isIdentifier_of_operatorWord hmem) with ⟨c, cs, hchars, hc, hcs⟩
    have hname : String.ofList (c :: cs) = word := by rw [← hchars, String.ofList_toList]
    have hends : EndsName (' ' :: (text ++ rest)).head? :=
      endsName_some (by decide) (by decide) (by decide)
    have hfound : recognise p c (cs ++ ' ' :: (text ++ rest)) =
        ⟨.token (.identifier word false), cs.length⟩ := by
      have hplain := name?_plain hc hcs hends.1
      rw [hname] at hplain
      exact recognise_name (Or.inr hc) hplain hends.2
    have hled : LedByWord (word.toList ++ ' ' :: text) := ⟨word, hmem, text, rfl⟩
    have hsettle : (Item.token (.identifier word false)).settle
        (blankOrEnd before && blankOrEnd (some ' ')) = .token (.operator op) := by
      have htrue : word ≠ "true" := by
        rintro rfl
        simp [Operator.ofWord?] at hword
      have hfalse : word ≠ "false" := by
        rintro rfl
        simp [Operator.ofWord?] at hword
      have hblank : blankOrEnd (some ' ') = true := rfl
      simp [Item.settle, wordPayload, htrue, hfalse, hword, hbefore hled, hblank]
    have htext := h.blank.items_eq (c :: cs).getLast? rest
      (fun hled' => absurd hled' (not_ledByWord_cons (by decide) text)) hrest
    have hlast : (c :: cs ++ ' ' :: text).getLast?.or before = (' ' :: text).getLast? := by
      rw [List.getLast?_append, getLast?_cons_or, getLast?_cons_or]
    rw [getLast?_cons_or] at htext
    rw [hchars, hlast, List.append_assoc, List.cons_append, List.cons_append,
      items_token (not_blank_of_start (Or.inr hc)) hfound, List.head?_cons, hsettle,
      ← List.cons_append, htext]
    rfl
  clean := by
    intro payload hpayload
    rcases List.mem_cons.mp hpayload with rfl | hpayload
    · rfl
    · exact h.clean payload hpayload

/-- Whether a part of a function name is written between quotes. -/
def calleeQuoted (part : String) : Bool :=
  !operatorWords.contains part && needsQuotes part

/-- A part of a function name as a formula writes it. -/
def calleePartText (part : String) : List Char :=
  if operatorWords.contains part then part.toList else nameText part

/-- A part of a function name is read as a name in front of anything but a blank. -/
theorem Lexes.calleePart (part : String) :
    Lexes p (fun next => EndsName next ∧ blankOrEnd next = false) (calleePartText part)
      [.identifier part (calleeQuoted part)] := by
  unfold calleePartText
  by_cases hword : operatorWords.contains part = true
  · have hmem : part ∈ operatorWords := by simpa using hword
    rcases chars_of_isIdentifier (isIdentifier_of_operatorWord hmem) with ⟨c, cs, hchars, hc, hcs⟩
    have hname : String.ofList (c :: cs) = part := by rw [← hchars, String.ofList_toList]
    simp only [hword, ↓reduceIte, calleeQuoted, Bool.not_true, Bool.false_and, hchars]
    apply Lexes.single (.identifier part false) (not_blank_of_start (Or.inr hc)) _ _ rfl
    · intro rest hrest
      have hplain := name?_plain hc hcs hrest.1.1
      rw [hname] at hplain
      exact recognise_name (Or.inr hc) hplain hrest.1.2
    · intro before next hnext
      have hidentifier : ∀ w ∈ operatorWords, wordPayload w false = .identifier w false := by
        decide
      simp only [Item.settle, hnext.2, Bool.and_false, hidentifier part hmem]
  · have hquoted : calleeQuoted part = needsQuotes part := by
      simp only [calleeQuoted, hword, Bool.not_false, Bool.true_and]
    rw [if_neg hword, hquoted]
    exact (Lexes.name part).imp fun _ hnext => hnext.1

/-- A name is never a word for an operator. -/
theorem not_ledByWord_nameText (name : String) {rest : List Char} (hrest : EndsWord rest.head?) :
    ¬ LedByWord (nameText name ++ rest) := by
  rintro ⟨word, hword, more, htext⟩
  rcases chars_of_isIdentifier (isIdentifier_of_operatorWord hword) with ⟨c, cs, hchars, hc, hcs⟩
  have hblank : EndsWord (' ' :: more).head? := endsWord_some (by decide) (by decide)
  have hplain := name?_plain hc hcs hblank
  have hname := name?_nameText name hrest
  rw [htext, hchars, List.cons_append, hplain] at hname
  -- the two readings of the text give the name and the word, but the word would be quoted
  have hread := Option.some.inj hname
  have hquoted : ∀ w ∈ operatorWords, needsQuotes w = true := by decide
  have heq : name = word := by
    rw [← String.ofList_toList (s := word), hchars]
    exact (congrArg NameMatch.name hread).symm
  have hplainly : false = needsQuotes name := congrArg NameMatch.quoted hread
  rw [heq, hquoted word hword] at hplainly
  exact absurd hplainly (by decide)

/-- A part of a function name has no blank behind a word for an operator. -/
theorem not_ledByWord_calleePartText (part : String) : ¬ LedByWord (calleePartText part) := by
  unfold calleePartText
  split
  · rename_i hword
    rintro ⟨word, -, more, htext⟩
    have hblank : ∀ w ∈ operatorWords, ' ' ∉ w.toList := by decide
    apply hblank part (by simpa using hword)
    simp [htext]
  · have hends : EndsWord ([] : List Char).head? := fun c hc => by simp at hc
    have hname := not_ledByWord_nameText part hends
    rwa [List.append_nil] at hname

end

end FormulaLint
