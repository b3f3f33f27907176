import FormulaLint.Proofs.Lexing.Locality

/-!
# Fading texts

Blanks come in place of some characters of a text.  What was open in the text, a quote, a comment or
a run of invalid characters, is open still, and it ends where it ended.

Main results:

- Theorem {lit}`Fades.agrees`: up to its first blank the faded text agrees with the text.
- Theorem {lit}`Fades.closing_eq_none` and {lit}`Fades.blockCommentLength?_eq_none`: nothing is closed
  that was open.
- Theorem {lit}`recognise_error_fades`: errors stay what they are.
-/

namespace FormulaLint

/-! ## Texts with blanks in place of characters -/

/-- A blank in place of every character, but line feeds stay. -/
def blankOut (cs : List Char) : List Char :=
  cs.map fun c => if c = '\n' then '\n' else ' '

/-- The second text is the first one with blanks in place of some of its characters, of which none
is a line feed. -/
inductive Fades : List Char → List Char → Prop
  | nil : Fades [] []
  | keep (c : Char) {text text' : List Char} (h : Fades text text') : Fades (c :: text) (c :: text')
  | fade {c : Char} (hc : c ≠ '\n') {text text' : List Char} (h : Fades text text') :
      Fades (c :: text) (' ' :: text')

section

variable {text text' cs : List Char}

/-- Characters that stay in front of a text. -/
theorem Fades.append (cs : List Char) (h : Fades text text') : Fades (cs ++ text) (cs ++ text') := by
  induction cs with
  | nil => exact h
  | cons c cs ih => exact .keep c ih

/-- Characters that are blanked out in front of a text. -/
theorem Fades.blankOut (cs : List Char) (h : Fades text text') :
    Fades (cs ++ text) (blankOut cs ++ text') := by
  induction cs with
  | nil => exact h
  | cons c cs ih =>
      by_cases hc : c = '\n'
      · subst hc
        exact .keep '\n' ih
      · have hblank : FormulaLint.blankOut (c :: cs) = ' ' :: FormulaLint.blankOut cs := by
          simp [FormulaLint.blankOut, hc]
        rw [hblank]
        exact .fade hc ih

/-- Up to its first blank the second text agrees with the first one. -/
theorem Fades.agrees (h : Fades text text') : Agrees text text' := by
  induction h with
  | nil => exact .nil []
  | keep c _ ih => exact .cons c ih
  | fade _ _ _ => exact .blank (by decide) _ _

/-- No character goes missing. -/
theorem Fades.length_eq (h : Fades text text') : text'.length = text.length := by
  induction h with
  | nil => rfl
  | keep c _ ih => rw [List.length_cons, List.length_cons, ih]
  | fade _ _ ih => rw [List.length_cons, List.length_cons, ih]

/-- A character other than a space was there before. -/
theorem Fades.not_mem {d : Char} (h : Fades text text') (hd : d ≠ ' ') (hnot : d ∉ text) :
    d ∉ text' := by
  induction h with
  | nil => exact hnot
  | keep c _ ih =>
      rw [List.mem_cons, not_or] at hnot ⊢
      exact ⟨hnot.1, ih hnot.2⟩
  | fade _ _ ih =>
      rw [List.mem_cons, not_or] at hnot ⊢
      exact ⟨hd, ih hnot.2⟩

/-- A first character other than a space is the first one of both texts. -/
theorem Fades.of_cons {d : Char} {rest : List Char} (h : Fades text (d :: rest)) (hd : d ≠ ' ') :
    ∃ rest', text = d :: rest' ∧ Fades rest' rest := by
  cases h with
  | keep c h => exact ⟨_, rfl, h⟩
  | fade _ _ => exact absurd rfl hd

/-- First characters other than spaces are the first ones of both texts. -/
theorem Fades.of_append {rest : List Char} (h : Fades text (cs ++ rest)) (hcs : ' ' ∉ cs) :
    ∃ rest', text = cs ++ rest' ∧ Fades rest' rest := by
  induction cs generalizing text with
  | nil => exact ⟨text, rfl, h⟩
  | cons d cs ih =>
      rw [List.mem_cons, not_or] at hcs
      rcases h.of_cons (Ne.symm hcs.1) with ⟨rest', rfl, hrest⟩
      rcases ih hrest hcs.2 with ⟨rest'', rfl, hrest'⟩
      exact ⟨rest'', rfl, hrest'⟩

/-- A blank stays one. -/
theorem Fades.blankOrEnd (h : Fades text text') (hend : blankOrEnd text.head? = true) :
    blankOrEnd text'.head? = true := by
  cases h with
  | nil => exact hend
  | keep c _ => exact hend
  | fade _ _ => rfl

/-- The lines of both texts end at the same places. -/
theorem Fades.lineStartsFrom_eq (h : Fades text text') (offset : Nat) :
    lineStartsFrom offset text' = lineStartsFrom offset text := by
  induction h generalizing offset with
  | nil => rfl
  | keep c _ ih => simp only [lineStartsFrom, ih]
  | fade hc _ ih => simp only [lineStartsFrom, hc, Char.reduceEq, ↓reduceIte, ih]

/-- The first lines of both texts are of one length. -/
theorem Fades.length_takeWhile_line (h : Fades text text') :
    (text'.takeWhile (· != '\n')).length = (text.takeWhile (· != '\n')).length := by
  induction h with
  | nil => rfl
  | keep c _ ih => by_cases hc : c = '\n' <;> simp [hc, ih]
  | fade hc _ ih => simp [hc, ih]

/-- A text that is never closed stays so. -/
theorem Fades.closing_eq_none {quote : Char} (h : Fades text text') (hquote : quote ≠ ' ')
    (hnone : Text.closing quote text = none) : Text.closing quote text' = none :=
  closing_eq_none_iff.mpr (h.not_mem hquote (closing_eq_none_iff.mp hnone))

/-- A quote opens no text that it did not open before. -/
theorem Fades.closing_tail {quote : Char} (h : Fades text text') (hquote : quote ≠ ' ')
    (hhead : text'.head? = some quote) (hnone : Text.closing quote text.tail = none) :
    Text.closing quote text'.tail = none := by
  rcases List.head?_eq_some_iff.mp hhead with ⟨rest, rfl⟩
  rcases h.of_cons hquote with ⟨rest', rfl, hrest⟩
  exact hrest.closing_eq_none hquote hnone

/-- A block comment that is never closed stays so. -/
theorem Fades.blockCommentLength?_eq_none (h : Fades text text')
    (hnone : blockCommentLength? text = none) : blockCommentLength? text' = none := by
  induction h with
  | nil => exact hnone
  | @keep c text text' h ih =>
      rw [blockCommentLength?] at hnone ⊢
      split at hnone
      · simp at hnone
      · rename_i hgoes
        have hgoes' : ¬ (c = '*' && text'.head? = some '/') = true := by
          intro hend
          apply hgoes
          simp only [Bool.and_eq_true, decide_eq_true_eq] at hend ⊢
          rcases List.head?_eq_some_iff.mp hend.2 with ⟨rest, rfl⟩
          rcases h.of_cons (by decide) with ⟨rest', rfl, -⟩
          exact ⟨hend.1, rfl⟩
        rw [if_neg hgoes', ih (Option.map_eq_none_iff.mp hnone)]
        rfl
  | fade _ _ ih =>
      rw [blockCommentLength?] at hnone ⊢
      split at hnone
      · simp at hnone
      · rw [if_neg (by simp), ih (Option.map_eq_none_iff.mp hnone)]
        rfl

end

/-! ## Errors in front of a fading text -/

section

variable {p : Profile} {c : Char} {cs behind behind' : List Char} {e : LexicalError}

/-- A run up to a blank ends where it ended. -/
theorem run_agrees {accepts : Char → Bool}
    (haccepts : ∀ c, Text.isBlank c = true → accepts c = false) (h : Agrees behind behind')
    (hrun : Match.token (.error e) ((cs ++ behind).takeWhile accepts).length =
      ⟨.token (.error e), cs.length⟩) :
    Match.token (.error e) ((cs ++ behind').takeWhile accepts).length =
      ⟨.token (.error e), cs.length⟩ := by
  have hlength := (Match.token_eq_iff.mp hrun).2
  rw [takeWhile_agrees haccepts h.head (Nat.le_of_eq hlength)]
  exact hrun

/-- An open text stays what it is. -/
theorem recognise_text_fades (h : Fades behind behind')
    (hfound : recognise p '"' (cs ++ behind) = ⟨.token (.error e), cs.length⟩) :
    recognise p '"' (cs ++ behind') = ⟨.token (.error e), cs.length⟩ := by
  rw [recognise_text] at hfound ⊢
  cases hread : Text.closing '"' (cs ++ behind) with
  | some read =>
      rw [hread] at hfound
      exact absurd (Match.token_eq_iff.mp hfound).1 (by simp)
  | none =>
      rw [hread] at hfound
      rcases Match.token_eq_iff.mp hfound with ⟨herror, -⟩
      rcases Payload.error.inj herror with rfl
      rw [(h.append cs).closing_eq_none (by decide) hread]
      exact run_agrees (by simp) h.agrees hfound

/-- An open name stays what it is. -/
theorem recognise_named_fades (hc : c = '\'' ∨ Text.isIdentifierStart c = true)
    (h : Fades behind behind')
    (hfound : recognise p c (cs ++ behind) = ⟨.token (.error e), cs.length⟩) :
    recognise p c (cs ++ behind') = ⟨.token (.error e), cs.length⟩ := by
  rw [recognise_named p _ hc] at hfound ⊢
  cases hname : name? (c :: (cs ++ behind)) with
  | some scope =>
      rw [hname] at hfound
      dsimp only at hfound
      split at hfound
      · exact absurd (Match.token_eq_iff.mp hfound).1 (by simp)
      · exact absurd (Match.token_eq_iff.mp hfound).1 (by simp)
  | none =>
      rw [hname] at hfound
      rcases Match.token_eq_iff.mp hfound with ⟨herror, -⟩
      rcases Payload.error.inj herror with rfl
      have hname' : name? (c :: (cs ++ behind')) = none := by
        rw [name?] at hname ⊢
        split at hname
        · rename_i hquote
          have hclosing := Option.map_eq_none_iff.mp hname
          rw [if_pos hquote, (h.append cs).closing_eq_none (by decide) hclosing]
          rfl
        · rename_i hquote
          have hstart := hc.resolve_left hquote
          simp [hstart] at hname
      rw [hname']
      exact run_agrees (by simp) h.agrees hfound

/-- An open comment stays what it is. -/
theorem recognise_slash_fades (h : Fades behind behind')
    (hfound : recognise p '/' (cs ++ behind) = ⟨.token (.error e), cs.length⟩) :
    recognise p '/' (cs ++ behind') = ⟨.token (.error e), cs.length⟩ := by
  rw [recognise_slash] at hfound ⊢
  cases hclosed : comment? '/' (cs ++ behind) with
  | some found =>
      rw [hclosed, Option.some_or, Option.getD_some] at hfound
      exact absurd (item_of_comment? hclosed) (by simp [hfound])
  | none =>
      rw [hclosed, Option.none_or] at hfound
      by_cases hstar : (cs ++ behind).head? = some '*'
      · have hopen : ∀ rest : List Char, rest.head? = some '*' → unterminatedComment? '/' rest =
            some (.token (.error .unterminatedComment) (rest.takeWhile (· != '\n')).length) := by
          intro rest hrest
          simp [unterminatedComment?, hrest]
        rw [hopen _ hstar, Option.getD_some] at hfound
        have hlength := (Match.token_eq_iff.mp hfound).2
        -- the star belongs to the open comment
        have hfront : ∃ front, cs = '*' :: front := by
          cases cs with
          | nil =>
              rcases List.head?_eq_some_iff.mp hstar with ⟨rest, hrest⟩
              simp [hrest] at hlength
          | cons d front => exact ⟨front, by simpa using hstar⟩
        rcases hfront with ⟨front, rfl⟩
        have hnone : blockCommentLength? (front ++ behind) = none :=
          Option.map_eq_none_iff.mp hclosed
        have hclosed' : comment? '/' ('*' :: front ++ behind') = none := by
          simp [comment?, (h.append front).blockCommentLength?_eq_none hnone]
        rw [hclosed', Option.none_or, hopen _ rfl, Option.getD_some,
          (h.append ('*' :: front)).length_takeWhile_line]
        exact hfound
      · have hdivide : unterminatedComment? '/' (cs ++ behind) = none := by
          rw [unterminatedComment?, if_neg]
          intro hopen
          exact hstar (by simpa using hopen)
        rw [hdivide] at hfound
        exact absurd (Match.token_eq_iff.mp hfound).1 (by simp)

/-- A run of invalid characters stays what it is. -/
theorem recognise_other_fades (hc : StartsOther c) (h : Fades behind behind')
    (hfound : recognise p c (cs ++ behind) = ⟨.token (.error e), cs.length⟩) :
    recognise p c (cs ++ behind') = ⟨.token (.error e), cs.length⟩ := by
  rw [recognise_other p _ hc] at hfound ⊢
  cases hsymbol : symbol? p c (cs ++ behind) with
  | some found =>
      rw [hsymbol, Option.getD_some] at hfound
      subst hfound
      rw [symbol?_agrees h.agrees hsymbol]
      rfl
  | none =>
      rw [hsymbol] at hfound
      rcases Match.token_eq_iff.mp hfound with ⟨herror, -⟩
      rcases Payload.error.inj herror with rfl
      rw [symbol?_none_agrees h.agrees hsymbol]
      exact run_agrees (by simp +contextual) h.agrees hfound

/-- An error stays what it is, provided that no bracketed name appears where none was. -/
theorem recognise_error_fades (h : Fades behind behind')
    (hbracket : bracketName? (c :: (cs ++ behind)) = none →
      bracketName? (c :: (cs ++ behind')) = none)
    (hfound : recognise p c (cs ++ behind) = ⟨.token (.error e), cs.length⟩) :
    recognise p c (cs ++ behind') = ⟨.token (.error e), cs.length⟩ := by
  rcases start_cases c with hname | hnumeric | rfl | rfl | rfl | hother
  · exact recognise_named_fades hname h hfound
  · exact recognise_numeric_agrees hnumeric h.agrees hfound
  · exact recognise_text_fades h hfound
  · exact recognise_openingBracket_append hbracket hfound
  · exact recognise_slash_fades h hfound
  · exact recognise_other_fades hother h hfound

end

end FormulaLint
