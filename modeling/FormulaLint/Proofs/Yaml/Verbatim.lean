import FormulaLint.Proofs.Yaml.Moves

/-!
# Scalars that are written out

A quoted scalar is copied from the text, unless it has escapes or line breaks.  A plain scalar is
copied as far as it stands on one line.

Main results:

- Theorem {lit}`copies_quotedScalar`: a quoted scalar stands between its quotes.
- Theorem {lit}`plainScalar_prefix`: a plain scalar starts where it is read.
- Theorems {lit}`reaches_plainScalar` and {lit}`Copies.reaches`: reading goes forwards.
-/

namespace FormulaLint.Yaml.Cursor

variable {P : Char → Prop} {c c' c'' : Cursor} {text more : List Char}

/-- What is read between two places: the characters between them, as long as {lit}`P` holds of them. -/
def Copies (P : Char → Prop) (c : Cursor) (text : List Char) (c' : Cursor) : Prop :=
  ∃ n, n ≤ c.rest.length ∧ c' = c.advance n ∧ ((∀ ch ∈ c.rest.take n, P ch) → text = c.rest.take n)

namespace Copies

theorem reaches (h : c.Copies P text c') : c.Reaches c' := by
  obtain ⟨n, hn, rfl, -⟩ := h
  exact ⟨n, hn, rfl, fun _ _ => trivial⟩

theorem refl (P : Char → Prop) (c : Cursor) : c.Copies P [] c :=
  ⟨0, Nat.zero_le _, rfl, by simp⟩

/-- Two passages are one. -/
theorem trans (h : c.Copies P text c') (h' : c'.Copies P more c'') :
    c.Copies P (text ++ more) c'' := by
  obtain ⟨m, hm, rfl, htext⟩ := h
  obtain ⟨n, hn, rfl, hmore⟩ := h'
  rw [rest_advance] at hn hmore
  refine ⟨m + n, by rw [List.length_drop] at hn; omega, (advance_add c m n).symm, ?_⟩
  rw [List.take_add]
  intro hP
  rw [htext fun ch hch => hP ch (List.mem_append_left _ hch),
    hmore fun ch hch => hP ch (List.mem_append_right _ hch)]

end Copies

theorem copies_takeWhile (P : Char → Prop) (c : Cursor) (p : Char → Bool) :
    c.Copies P (c.takeWhile p).1 (c.takeWhile p).2 :=
  ⟨_, (List.takeWhile_prefix p).length_le, rfl,
    fun _ => List.prefix_iff_eq_take.mp (List.takeWhile_prefix p)⟩

theorem copies_step (P : Char → Prop) {ch : Char} {rest : List Char} (h : c.rest = ch :: rest) :
    c.Copies P [ch] c.step :=
  ⟨1, by simp [h], rfl, by simp [h]⟩

/-- Anything may be read over a character for which {lit}`P` fails. -/
theorem copies_of_not {d : Cursor} {ch : Char} {rest : List Char} (hbefore : c.Reaches d)
    (h : d.rest = ch :: rest) (hP : ¬ P ch) (hafter : d.step.Reaches c') (text : List Char) :
    c.Copies P text c' := by
  obtain ⟨m, hm, rfl, -⟩ := hbefore
  obtain ⟨n, hn, rfl, -⟩ := hafter
  rw [rest_step, h, List.drop_one, List.tail_cons] at hn
  rw [rest_advance] at h
  have hlength : c.rest.length = m + (rest.length + 1) := by
    rw [← List.length_cons (a := ch), ← h, List.length_drop]
    omega
  refine ⟨m + (n + 1), by omega, by rw [advance_add, advance], fun hall => absurd (hall ch ?_) hP⟩
  rw [List.take_add, h, List.take_succ_cons]
  exact List.mem_append_right _ List.mem_cons_self

/-- A line break is no character of which {lit}`P` holds. -/
theorem copies_of_lineBreak {d after : Cursor} {br : Char} (hP : ∀ ch, P ch → isBreak ch = false)
    (hbefore : c.Reaches d) (hbreak : d.lineBreak? = some (br, after)) (hafter : after.Reaches c')
    (text : List Char) : c.Copies P text c' := by
  have hhead : ∃ ch rest, d.rest = ch :: rest ∧ isBreak ch = true := by
    by_contra hno
    rw [lineBreak?_eq_none_iff.mpr] at hbreak
    · cases hbreak
    · intro ch hch
      obtain ⟨rest, hrest⟩ := List.head?_eq_some_iff.mp hch
      exact Bool.eq_false_iff.mpr fun htrue => hno ⟨ch, rest, hrest, htrue⟩
  obtain ⟨ch, rest, hrest, hch⟩ := hhead
  obtain ⟨n, hpos, -, rfl⟩ := (breaksTo_of_lineBreak? hbreak).passes
  obtain ⟨n, rfl⟩ := Nat.exists_eq_add_of_lt hpos
  rw [Nat.zero_add, advance] at hafter
  exact copies_of_not hbefore hrest (fun h => by simp [hP ch h] at hch)
    ((reaches_advance d.step n).trans hafter) text

/-! ## Quoted scalars -/

/-- Whether a character of a quoted scalar stands for itself: it is no break and starts no escape. -/
def Literally (style : QuoteStyle) (ch : Char) : Prop :=
  isBreak ch = false ∧ ch ≠ (match style with | .single => '\'' | .double => '\\')

theorem reaches_quotedBreaks {fuel : Nat} {breaks text : List Char}
    (h : quotedBreaks fuel breaks c = .ok (text, c')) : c.Reaches c' := by
  induction fuel generalizing breaks c with
  | zero => simp [quotedBreaks] at h
  | succ fuel ih =>
      simp only [quotedBreaks] at h
      split at h
      · simp at h
      · have hblanks : c.Reaches (c.skipWhile fun ch => ch == ' ' || ch == '\t') :=
          reaches_takeWhile c _
        split at h
        · exact (hblanks.trans (reaches_lineBreak? ‹_›)).trans (ih h)
        · obtain ⟨-, rfl⟩ := Prod.mk.inj (Except.ok.inj h)
          exact hblanks

theorem reaches_escape (h : c.escape = .ok (text, c')) : c.Reaches c' := by
  unfold escape at h
  split at h
  · obtain ⟨-, rfl⟩ := Prod.mk.inj (Except.ok.inj h)
    exact reaches_step c
  · split at h
    · dsimp only at h
      split at h
      · obtain ⟨ch, -, h⟩ := bind_eq_ok_iff.mp h
        obtain ⟨-, rfl⟩ := Prod.mk.inj (Except.ok.inj h)
        exact (reaches_step c).trans (reaches_advance _ _)
      · simp at h
    · split at h
      · exact (reaches_lineBreak? ‹_›).trans (reaches_quotedBreaks h)
      · simp at h

/-- A word of a quoted scalar. -/
theorem copies_quotedWord {style : QuoteStyle} {fuel : Nat} {text text' : List Char}
    (h : quotedWord style fuel text c = .ok (text', c')) :
    ∃ word, text' = text ++ word ∧ c.Copies (Literally style) word c' := by
  induction fuel generalizing text c with
  | zero => simp [quotedWord] at h
  | succ fuel ih =>
      simp only [quotedWord] at h
      have hword := copies_takeWhile (Literally style) c isQuotedText
      generalize hfirst : (c.takeWhile isQuotedText).1 = first at h hword
      generalize hc : (c.takeWhile isQuotedText).2 = d at h hword
      clear hfirst hc
      have hend : (.ok (text ++ first, d) : Except ReadError _) = .ok (text', c') →
          ∃ word, text' = text ++ word ∧ c.Copies (Literally style) word c' := fun h => by
        obtain ⟨rfl, rfl⟩ := Prod.mk.inj (Except.ok.inj h)
        exact ⟨first, rfl, hword⟩
      have hgo : ∀ {piece : List Char} {after : Cursor}, d.Copies (Literally style) piece after →
          quotedWord style fuel (text ++ first ++ piece) after = .ok (text', c') →
          ∃ word, text' = text ++ word ∧ c.Copies (Literally style) word c' := fun hpiece h => by
        obtain ⟨word, rfl, hrest⟩ := ih h
        exact ⟨first ++ _ ++ word, by simp, (hword.trans hpiece).trans hrest⟩
      split at h
      · rename_i hpeek
        obtain ⟨rest, hrest⟩ := rest_of_peek hpeek (by decide)
        split at h
        · exact hgo (copies_of_not (.refl _) hrest (fun h => h.2 rfl) (reaches_advance _ 1) _) h
        · exact hend h
      · obtain ⟨rest, hrest⟩ := rest_of_peek ‹_› (by decide)
        exact hgo (copies_step _ hrest) h
      · obtain ⟨rest, hrest⟩ := rest_of_peek ‹_› (by decide)
        exact hgo (copies_step _ hrest) h
      · obtain ⟨rest, hrest⟩ := rest_of_peek ‹_› (by decide)
        exact hgo (copies_step _ hrest) h
      · rename_i hpeek
        obtain ⟨rest, hrest⟩ := rest_of_peek hpeek (by decide)
        obtain ⟨⟨escaped, after⟩, hescape, h⟩ := bind_eq_ok_iff.mp h
        exact hgo (copies_of_not (.refl _) hrest (fun h => h.2 rfl) (reaches_escape hescape) _) h
      · exact hend h

/-- What stands between two words of a quoted scalar. -/
theorem copies_quotedGap {style : QuoteStyle} (h : c.quotedGap = .ok (text, c')) :
    c.Copies (Literally style) text c' := by
  simp only [quotedGap] at h
  have hblanks := copies_takeWhile (Literally style) c (fun ch => ch == ' ' || ch == '\t')
  split at h
  · simp at h
  · split at h
    · obtain ⟨rfl, rfl⟩ := Prod.mk.inj (Except.ok.inj h)
      exact hblanks
    · rename_i first after hbreak
      obtain ⟨⟨more, behind⟩, hmore, h⟩ := bind_eq_ok_iff.mp h
      obtain ⟨rfl, rfl⟩ := Prod.mk.inj (Except.ok.inj h)
      exact copies_of_lineBreak (fun _ h => h.1) hblanks.reaches hbreak (reaches_quotedBreaks hmore) _

/-- The words of a quoted scalar up to its closing quote. -/
theorem copies_quotedWords {style : QuoteStyle} {fuel : Nat} {text text' : List Char}
    (h : quotedWords style fuel text c = .ok (text', c')) :
    ∃ more closing, text' = text ++ more ∧ c.Copies (Literally style) more closing ∧
      closing.peek = style.char ∧ c' = closing.step := by
  induction fuel generalizing text c with
  | zero => simp [quotedWords] at h
  | succ fuel ih =>
      rw [quotedWords] at h
      split at h
      · obtain ⟨rfl, rfl⟩ := Prod.mk.inj (Except.ok.inj h)
        exact ⟨[], c, by simp, .refl _ c, ‹_›, rfl⟩
      · obtain ⟨⟨gap, d⟩, hgap, h⟩ := bind_eq_ok_iff.mp h
        obtain ⟨⟨text₁, d₁⟩, hword, h⟩ := bind_eq_ok_iff.mp h
        obtain ⟨word, heq, hword⟩ := copies_quotedWord hword
        obtain rfl : text₁ = word := by simpa using heq
        obtain ⟨more, closing, rfl, hmore, hclosing⟩ := ih h
        exact ⟨gap ++ text₁ ++ more, closing, by simp,
          ((copies_quotedGap hgap).trans hword).trans hmore, hclosing⟩

/-- A quoted scalar is what stands between its quotes. -/
theorem copies_quotedScalar {style : QuoteStyle} {value : String}
    (h : c.quotedScalar style = .ok (value, c')) :
    ∃ closing, c.step.Copies (Literally style) value.toList closing ∧
      closing.peek = style.char ∧ c' = closing.step := by
  obtain ⟨⟨text₁, d⟩, hword, h⟩ := bind_eq_ok_iff.mp h
  obtain ⟨⟨text₂, d'⟩, hwords, h⟩ := bind_eq_ok_iff.mp h
  obtain ⟨rfl, rfl⟩ := Prod.mk.inj (Except.ok.inj h)
  obtain ⟨word, rfl, hword⟩ := copies_quotedWord hword
  obtain ⟨more, closing, rfl, hmore, hclosing⟩ := copies_quotedWords hwords
  exact ⟨closing, by simpa using hword.trans hmore, hclosing⟩

/-- A quoted scalar whose characters all stand for themselves is what is written in its quotes. -/
theorem quotedScalar_eq {style : QuoteStyle} {value : String} {body : List Char}
    (h : c.quotedScalar style = .ok (value, c'))
    (hbody : c.rest = style.char :: (body ++ style.char :: c'.rest))
    (hliterally : ∀ ch ∈ body, Literally style ch) : value.toList = body := by
  obtain ⟨closing, ⟨n, -, rfl, hcopies⟩, hpeek, rfl⟩ := copies_quotedScalar h
  have hquote : style.char ≠ endOfText := by cases style <;> decide
  obtain ⟨after, hafter⟩ := rest_of_peek hpeek hquote
  rw [rest_advance] at hafter
  rw [rest_step, rest_advance, hafter, List.drop_one, List.tail_cons] at hbody
  have hsplit : c.step.rest.take n ++ style.char :: after = body ++ style.char :: after := by
    calc c.step.rest.take n ++ style.char :: after
        = c.step.rest := by rw [← hafter, List.take_append_drop]
      _ = body ++ style.char :: after := by rw [rest_step, hbody, List.drop_one, List.tail_cons]
  have htake := List.append_cancel_right hsplit
  rw [← htake]
  exact hcopies (htake ▸ hliterally)

/-! ## Plain scalars -/

/-- A word of a plain scalar stands in the text. -/
theorem plainWord_prefix (inFlow : Bool) (cs : List Char) : plainWord inFlow cs <+: cs := by
  induction cs with
  | nil => exact List.prefix_rfl
  | cons ch rest ih =>
      rw [plainWord]
      split
      · exact List.nil_prefix
      · exact List.prefix_cons_inj ch |>.mpr ih

/-- What is read of a plain scalar starts with what was read before. -/
theorem prefix_plainWords (inFlow : Bool) (indent : Int) (fuel : Nat) (text gap : List Char)
    (newLine : Bool) (c : Cursor) : text <+: (plainWords inFlow indent fuel text gap newLine c).1 := by
  induction fuel generalizing text gap newLine c with
  | zero => exact List.prefix_rfl
  | succ fuel ih =>
      simp only [plainWords]
      split
      · exact List.prefix_rfl
      · split
        · exact List.prefix_rfl
        · have hgo : text <+: text ++ gap ++ plainWord inFlow c.rest := by
            rw [List.append_assoc]
            exact List.prefix_append _ _
          split
          · exact hgo
          · exact hgo.trans (ih _ _ _ _)

/-- A plain scalar starts with the character at its place. -/
theorem head?_plainScalar {inFlow : Bool} {indent : Int} {ch : Char}
    (h : (c.plainScalar inFlow indent).1.toList.head? = some ch) : c.rest.head? = some ch := by
  simp only [plainScalar, plainWords, String.toList_ofList] at h
  split at h
  · simp at h
  · split at h
    · simp at h
    · rename_i hword
      obtain ⟨d, word, hplain⟩ := List.exists_cons_of_ne_nil (by simpa using hword :
        plainWord inFlow c.rest ≠ [])
      obtain ⟨after, hrest⟩ := plainWord_prefix inFlow c.rest
      rw [hplain] at hrest
      simp only [hplain, List.nil_append] at h
      have hd : ∀ {cs : List Char}, d :: word <+: cs → cs.head? = some d := by
        rintro cs ⟨more, rfl⟩
        rfl
      split at h
      · rw [← hrest, hd (List.prefix_append _ _), ← h, hd List.prefix_rfl]
      · rw [← hrest, hd (List.prefix_append _ _), ← h, hd (prefix_plainWords _ _ _ _ _ _ _)]

/-- The rest of the line. -/
def firstLine (c : Cursor) : Cursor :=
  { c with rest := c.rest.takeWhile noBreak }

/-- On one line a plain scalar is copied. -/
theorem plainWords_prefix (inFlow : Bool) (indent : Int) (fuel : Nat) (text gap : List Char)
    (newLine : Bool) {c : Cursor} (hline : ∀ ch ∈ c.rest, isBreak ch = false) :
    (plainWords inFlow indent fuel text gap newLine c).1 <+: text ++ gap ++ c.rest := by
  induction fuel generalizing text gap newLine c with
  | zero =>
      rw [List.append_assoc]
      exact List.prefix_append _ _
  | succ fuel ih =>
      have hstop : text <+: text ++ gap ++ c.rest := by
        rw [List.append_assoc]
        exact List.prefix_append _ _
      simp only [plainWords]
      split
      · exact hstop
      · split
        · exact hstop
        · obtain ⟨after, hafter⟩ := plainWord_prefix inFlow c.rest
          set word := plainWord inFlow c.rest
          have hrest : (c.advance word.length).rest = after := by
            rw [rest_advance, ← hafter, List.drop_left]
          have hgap : (c.advance word.length).plainGap =
              ⟨after.takeWhile (· == ' '), false,
                (c.advance word.length).advance (after.takeWhile (· == ' ')).length⟩ := by
            have hnone : ((c.advance word.length).advance
                (after.takeWhile (· == ' ')).length).lineBreak? = none := by
              rw [lineBreak?_eq_none_iff, rest_advance, hrest]
              intro ch hch
              have hmem := List.mem_of_mem_drop (List.mem_of_mem_head? hch)
              exact hline ch (hafter ▸ List.mem_append_right _ hmem)
            simp only [plainGap, takeWhile, hrest, hnone]
          have htake : after.takeWhile (· == ' ') ++
              after.drop (after.takeWhile (· == ' ')).length = after := by
            conv_rhs => rw [← List.take_append_drop (after.takeWhile (· == ' ')).length after]
            rw [← List.prefix_iff_eq_take.mp (List.takeWhile_prefix _)]
          rw [hgap]
          split
          · rw [← hafter]
            exact ⟨after, by simp⟩
          · refine (ih _ _ _ ?_).trans ?_
            · rw [rest_advance, hrest]
              intro ch hch
              exact hline ch (hafter ▸ List.mem_append_right _ (List.mem_of_mem_drop hch))
            · rw [rest_advance, hrest, List.append_assoc (text ++ gap ++ word), htake, ← hafter]
              simp

/-- A plain scalar whose line alone reads the same stands in the text as it is. -/
theorem plainScalar_prefix (inFlow : Bool) (indent : Int) (c : Cursor) :
    (c.firstLine.plainScalar inFlow indent).1.toList <+: c.rest.takeWhile noBreak := by
  have h := plainWords_prefix inFlow indent (c.firstLine.rest.length + 1) [] [] false (c := c.firstLine)
    fun ch hch => by simpa [noBreak] using List.all_eq_true.mp List.all_takeWhile ch hch
  simpa [plainScalar, firstLine] using h

theorem reaches_plainLines {fuel : Nat} {breaks : List Char} {read : Option (List Char)}
    (h : plainLines fuel breaks c = (read, c')) : c.Reaches c' := by
  induction fuel generalizing breaks c with
  | zero =>
      obtain ⟨-, rfl⟩ := Prod.mk.inj h
      exact .refl c
  | succ fuel ih =>
      rw [plainLines] at h
      split at h
      · exact (reaches_step c).trans (ih h)
      · split at h
        · obtain ⟨-, rfl⟩ := Prod.mk.inj h
          exact .refl c
        · refine (reaches_lineBreak? ‹_›).trans ?_
          split at h
          · obtain ⟨-, rfl⟩ := Prod.mk.inj h
            exact .refl _
          · exact ih h

theorem reaches_plainGap (c : Cursor) : c.Reaches c.plainGap.after := by
  have hspaces := reaches_takeWhile c (· == ' ')
  simp only [plainGap]
  split
  · exact hspaces
  · have hbreak := hspaces.trans (reaches_lineBreak? ‹_›)
    split
    · exact hbreak
    · split
      · exact hbreak.trans (reaches_plainLines ‹_›)
      · exact hbreak.trans (reaches_plainLines ‹_›)

theorem reaches_plainWords (inFlow : Bool) (indent : Int) (fuel : Nat) (text gap : List Char)
    (newLine : Bool) (c : Cursor) :
    c.Reaches (plainWords inFlow indent fuel text gap newLine c).2.2 := by
  induction fuel generalizing text gap newLine c with
  | zero => exact .refl c
  | succ fuel ih =>
      simp only [plainWords]
      split
      · exact .refl c
      · split
        · exact .refl c
        · have hgap := (reaches_advance c (plainWord inFlow c.rest).length).trans (reaches_plainGap _)
          split
          · exact hgap
          · exact hgap.trans (ih _ _ _ _)

theorem reaches_plainScalar (c : Cursor) (inFlow : Bool) (indent : Int) :
    c.Reaches (c.plainScalar inFlow indent).2.2 := by
  simp only [plainScalar]
  exact reaches_plainWords _ _ _ _ _ _ c

end FormulaLint.Yaml.Cursor
