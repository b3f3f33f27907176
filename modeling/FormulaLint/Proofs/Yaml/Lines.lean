import FormulaLint.Text.Lines
import FormulaLint.Yaml.Cursor
import Mathlib.Data.List.Basic

/-!
# Cursors and the lines of a text

The line and the column of a cursor tell where its characters stand among the lines of the text.  The
breaks that a cursor counts are those at which a text is cut into lines, as long as the text has only
characters that may stand in it.

Main results:

- Theorem {lit}`Cursor.advance_add`: a cursor can be advanced in two stages.
- Theorem {lit}`Cursor.exists_standsIn`: a cursor knows the line it stands in.
- Theorem {lit}`Cursor.StandsIn.line_eq`: the line around a cursor.
-/

namespace FormulaLint

/-- Only what holds of the members decides where a list is cut. -/
theorem takeWhile_congr {α : Type} {p q : α → Bool} {l : List α} (h : ∀ a ∈ l, p a = q a) :
    l.takeWhile p = l.takeWhile q := by
  induction l with
  | nil => rfl
  | cons a l ih =>
      rw [List.takeWhile_cons, List.takeWhile_cons, h a List.mem_cons_self,
        ih fun b hb => h b (List.mem_cons_of_mem _ hb)]

/-! ## Lines -/

namespace Text

/-- A character that is no break belongs to the current line. -/
theorem linesFrom_of_not_endsLine {c : Char} (h : endsLine c = false) (line rest : List Char) :
    linesFrom line (c :: rest) = linesFrom (c :: line) rest := by
  rw [linesFrom.eq_def]
  split
  · rename_i heq
    simp at heq
  · rename_i heq
    obtain ⟨rfl, rfl⟩ := List.cons.inj heq
    exact absurd h (by decide)
  · rename_i heq
    obtain ⟨rfl, rfl⟩ := List.cons.inj heq
    simp [h]

/-- A break ends the current line. -/
theorem linesFrom_of_endsLine {c : Char} {rest : List Char} (h : endsLine c = true)
    (hpair : c = '\r' → rest.head? ≠ some '\n') (line : List Char) :
    linesFrom line (c :: rest) = line.reverse :: linesFrom [] rest := by
  rw [linesFrom.eq_def]
  split
  · rename_i heq
    simp at heq
  · rename_i heq
    obtain ⟨rfl, rfl⟩ := List.cons.inj heq
    exact absurd rfl (hpair rfl)
  · rename_i heq
    obtain ⟨rfl, rfl⟩ := List.cons.inj heq
    simp [h]

/-- A carriage return and a line feed together end the current line. -/
theorem linesFrom_pair (line rest : List Char) :
    linesFrom line ('\r' :: '\n' :: rest) = line.reverse :: linesFrom [] rest := by
  simp [linesFrom]

/-- The current line goes on up to the next break. -/
theorem head?_linesFrom {line cs : List Char} (h : line ≠ [] ∨ cs ≠ []) :
    (linesFrom line cs).head? = some (line.reverse ++ cs.takeWhile fun c => !endsLine c) := by
  induction cs generalizing line with
  | nil =>
      have hline : line ≠ [] := by simpa using h
      simp [linesFrom, hline]
  | cons c rest ih =>
      cases hc : endsLine c with
      | false =>
          rw [linesFrom_of_not_endsLine hc, ih (.inl (by simp))]
          simp [hc]
      | true =>
          by_cases hpair : c = '\r' ∧ rest.head? = some '\n'
          · obtain ⟨rfl, hhead⟩ := hpair
            obtain ⟨rest, rfl⟩ := List.head?_eq_some_iff.mp hhead
            simp [linesFrom_pair, hc]
          · rw [linesFrom_of_endsLine hc fun h h' => hpair ⟨h, h'⟩]
            simp [hc]

/-- No line has a break in it. -/
theorem endsLine_of_mem_linesFrom {line cs : List Char} (hline : ∀ c ∈ line, endsLine c = false) :
    ∀ chars ∈ linesFrom line cs, ∀ c ∈ chars, endsLine c = false := by
  have hended : ∀ {line : List Char} {more : List (List Char)}, (∀ c ∈ line, endsLine c = false) →
      (∀ chars ∈ more, ∀ c ∈ chars, endsLine c = false) →
      ∀ chars ∈ line.reverse :: more, ∀ c ∈ chars, endsLine c = false := by
    intro line more hline hmore chars hchars c hc
    rcases List.mem_cons.mp hchars with rfl | hchars
    · exact hline c (List.mem_reverse.mp hc)
    · exact hmore chars hchars c hc
  fun_induction linesFrom line cs with
  | case1 line hempty => simp
  | case2 line hempty => exact hended hline (by simp)
  | case3 line rest ih => exact hended hline (ih (by simp))
  | case4 line c rest hpair hc ih => exact hended hline (ih (by simp))
  | case5 line c rest hpair hc ih =>
      refine ih fun d hd => ?_
      rcases List.mem_cons.mp hd with rfl | hd
      · exact Bool.eq_false_iff.mpr hc
      · exact hline d hd

end Text

namespace Yaml

/-- The breaks that a cursor counts are those that end lines. -/
theorem endsLine_eq_isBreak {c : Char} (h : isAllowed c = true) : Text.endsLine c = isBreak c := by
  have hcode : ∀ d : Char, (c == d) = (c.toNat == d.toNat) := by
    intro d
    by_cases hd : c = d
    · simp [hd]
    · have : c.toNat ≠ d.toNat := fun heq => hd (Char.toNat_inj.mp heq)
      simp [hd, this]
  simp only [isAllowed, Bool.or_eq_true, beq_iff_eq, Bool.and_eq_true, decide_eq_true_eq] at h
  rw [Bool.eq_iff_iff]
  simp only [Text.endsLine, isBreak, hcode, Bool.or_eq_true, beq_iff_eq, Bool.and_eq_true,
    decide_eq_true_eq, Char.reduceToNat]
  omega

namespace Cursor

variable {c c' : Cursor} {lines : List (List Char)} {before : List Char}

/-! ## The next character -/

theorem peek_of_rest_cons {ch : Char} {rest : List Char} (h : c.rest = ch :: rest) : c.peek = ch := by
  rw [peek, peekAt, h]
  rfl

theorem peek_of_rest_nil (h : c.rest = []) : c.peek = endOfText := by
  rw [peek, peekAt, h]
  rfl

/-- The next character, if it is not the end of the text. -/
theorem rest_of_peek {ch : Char} (h : c.peek = ch) (hch : ch ≠ endOfText) :
    ∃ rest, c.rest = ch :: rest := by
  cases hrest : c.rest with
  | nil => exact absurd (h.symm.trans (peek_of_rest_nil hrest)) hch
  | cons d rest => exact ⟨rest, by rw [← h, peek_of_rest_cons hrest]⟩

theorem head?_of_peek {ch : Char} (h : c.peek = ch) (hch : ch ≠ endOfText) :
    c.rest.head? = some ch :=
  List.head?_eq_some_iff.mpr (rest_of_peek h hch)

/-- At the end of the text there is nothing to step over. -/
theorem step_of_rest_nil (h : c.rest = []) : c.step = c := by
  unfold step
  rw [h]

@[simp] theorem advance_zero (c : Cursor) : c.advance 0 = c :=
  rfl

/-- A cursor can be advanced in two stages. -/
theorem advance_add (c : Cursor) (m n : Nat) : c.advance (m + n) = (c.advance m).advance n := by
  induction m generalizing c with
  | zero => simp
  | succ m ih => rw [Nat.succ_add, advance, ih, advance]

/-! ## Standing in a line -/

/-- Whether a character does not end a line. -/
def noBreak (c : Char) : Bool :=
  !isBreak c

/-- A cursor stands in a line behind the characters {lit}`before`: so many lines precede it as it
counts, and its column counts those characters, byte order marks left aside. -/
def StandsIn (lines : List (List Char)) (c : Cursor) (before : List Char) : Prop :=
  (∃ done, lines = done ++ Text.linesFrom before.reverse c.rest ∧ done.length = c.line) ∧
    (∀ ch ∈ before, isBreak ch = false) ∧ c.column = before.countP (· ≠ '\ufeff') ∧
    ∀ ch ∈ c.rest, isAllowed ch = true

/-- A text starts at the start of its first line. -/
theorem standsIn_ofText {text : List Char} (h : text.all isAllowed = true) :
    (ofText text).StandsIn (Text.lines text) [] :=
  ⟨⟨[], rfl, rfl⟩, by simp, rfl, List.all_eq_true.mp h⟩

theorem countP_eq_length_of_unmarked {part : List Char} (h : '\ufeff' ∉ part) :
    part.countP (· ≠ '\ufeff') = part.length := by
  rw [List.countP_eq_length]
  rintro ch hch
  have hne : ch ≠ '\ufeff' := fun heq => h (heq ▸ hch)
  simpa using hne

/-- Behind characters other than byte order marks the column is their number. -/
theorem StandsIn.column_eq_length (h : c.StandsIn lines before) (hmark : '\ufeff' ∉ before) :
    c.column = before.length :=
  h.2.2.1.trans (countP_eq_length_of_unmarked hmark)

/-- A character that is no break belongs to the line of the cursor. -/
theorem StandsIn.step {ch : Char} {rest : List Char} (h : c.StandsIn lines before)
    (hrest : c.rest = ch :: rest) (hch : isBreak ch = false) :
    c.step.StandsIn lines (before ++ [ch]) ∧ c.step.line = c.line := by
  obtain ⟨⟨done, hlines, hdone⟩, hbefore, hcolumn, hallowed⟩ := h
  have hstep : c.step = ⟨rest, c.index + 1, c.line, c.column + if ch = '\ufeff' then 0 else 1⟩ := by
    unfold Cursor.step
    rw [hrest]
    simp only [hch, Bool.false_and, Bool.false_eq_true, ↓reduceIte]
    split <;> simp [*]
  rw [hrest] at hlines hallowed
  have hends := endsLine_eq_isBreak (hallowed ch List.mem_cons_self)
  rw [Text.linesFrom_of_not_endsLine (hends.trans hch)] at hlines
  rw [hstep]
  refine ⟨⟨⟨done, by simpa using hlines, hdone⟩, ?_, ?_,
    fun d hd => hallowed d (List.mem_cons_of_mem _ hd)⟩, rfl⟩
  · simpa [or_imp, forall_and] using ⟨hbefore, hch⟩
  · rw [List.countP_append, ← hcolumn]
    by_cases hmark : ch = '\ufeff' <;> simp [hmark]

/-- Stepping over a break starts a new line. -/
theorem step_of_isBreak {ch : Char} {rest : List Char} (hrest : c.rest = ch :: rest)
    (hch : isBreak ch = true) (hpair : ch = '\r' → rest.head? ≠ some '\n') :
    c.step = ⟨rest, c.index + 1, c.line + 1, 0⟩ := by
  have hsingle : (ch == '\r' && rest.head? == some '\n') = false := by
    rw [Bool.and_eq_false_iff, beq_eq_false_iff_ne, beq_eq_false_iff_ne]
    exact or_iff_not_imp_left.mpr fun h => hpair (not_not.mp h)
  unfold Cursor.step
  rw [hrest]
  simp only [hch, hsingle, Bool.not_false, Bool.and_self, ↓reduceIte]

/-- Stepping over a carriage return in front of a line feed stays in the line. -/
theorem step_of_pair {rest : List Char} (hrest : c.rest = '\r' :: '\n' :: rest) :
    c.step = ⟨'\n' :: rest, c.index + 1, c.line, c.column + 1⟩ := by
  unfold Cursor.step
  rw [hrest]
  simp

/-- A break ends a line of the text. -/
theorem endsLine_of_isBreak {ch : Char} (h : isBreak ch = true) : Text.endsLine ch = true := by
  simp only [isBreak, Bool.or_eq_true, beq_iff_eq] at h
  rcases h with (((rfl | rfl) | rfl) | rfl) | rfl <;> rfl

/-- What a line break is: some characters of the text, which the lines of the text leave out, and in
the scalar a line feed or one of the separators. -/
structure BreaksTo (c : Cursor) (br : Char) (c' : Cursor) : Prop where
  isBreak : isBreak br = true
  passes : ∃ n, 0 < n ∧ n ≤ c.rest.length ∧ c' = c.advance n
  line_eq : c'.line = c.line + 1
  column_eq : c'.column = 0
  linesFrom_eq : ∀ line, Text.linesFrom line c.rest = line.reverse :: Text.linesFrom [] c'.rest

/-- A single break. -/
theorem breaksTo_step {ch br : Char} {rest : List Char} (hrest : c.rest = ch :: rest)
    (hch : Yaml.isBreak ch = true) (hpair : ch = '\r' → rest.head? ≠ some '\n')
    (hbr : Yaml.isBreak br = true) : c.BreaksTo br c.step where
  isBreak := hbr
  passes := ⟨1, Nat.one_pos, by simp [hrest], rfl⟩
  line_eq := by rw [step_of_isBreak hrest hch hpair]
  column_eq := by rw [step_of_isBreak hrest hch hpair]
  linesFrom_eq line := by
    rw [step_of_isBreak hrest hch hpair, hrest,
      Text.linesFrom_of_endsLine (endsLine_of_isBreak hch) hpair]

/-- A line break as it is read. -/
theorem breaksTo_of_lineBreak? {br : Char} (h : c.lineBreak? = some (br, c')) : c.BreaksTo br c' := by
  unfold lineBreak? at h
  split at h
  · rename_i rest hrest
    obtain ⟨rfl, rfl⟩ := Prod.mk.inj (Option.some.inj h)
    have hsecond : c.advance 2 = ⟨rest, c.index + 2, c.line + 1, 0⟩ := by
      change c.step.step = _
      rw [step_of_pair hrest]
      exact step_of_isBreak rfl rfl (by simp)
    exact ⟨rfl, ⟨2, Nat.two_pos, by simp [hrest], rfl⟩, by rw [hsecond], by rw [hsecond],
      fun line => by rw [hsecond, hrest, Text.linesFrom_pair]⟩
  · rename_i rest hrest
    obtain ⟨rfl, rfl⟩ := Prod.mk.inj (Option.some.inj h)
    exact breaksTo_step hrest rfl (by simp) rfl
  · rename_i rest hrest
    obtain ⟨rfl, rfl⟩ := Prod.mk.inj (Option.some.inj h)
    exact breaksTo_step hrest rfl (by simp) rfl
  · rename_i ch rest hpair _ _ hrest
    split at h
    · rename_i hch
      obtain ⟨rfl, rfl⟩ := Prod.mk.inj (Option.some.inj h)
      refine breaksTo_step hrest hch (fun hr hhead => ?_) rfl
      obtain ⟨after, rfl⟩ := List.head?_eq_some_iff.mp hhead
      exact hpair after hr rfl
    · simp at h
  · simp at h

/-- There is a line break exactly in front of a break. -/
theorem lineBreak?_eq_none_iff : c.lineBreak? = none ↔ ∀ ch ∈ c.rest.head?, isBreak ch = false := by
  unfold lineBreak?
  split
  · rename_i rest hrest
    simp [hrest, isBreak]
  · rename_i rest hrest
    simp [hrest, isBreak]
  · rename_i rest hrest
    simp [hrest, isBreak]
  · rename_i ch rest _ _ _ hrest
    simp [hrest]
  · rename_i hrest
    simp [hrest]

/-- Behind a break a new line starts. -/
theorem StandsIn.lineBreak {br : Char} (h : c.StandsIn lines before) (hbreak : c.BreaksTo br c') :
    c'.StandsIn lines [] := by
  obtain ⟨⟨done, hlines, hdone⟩, -, -, hallowed⟩ := h
  obtain ⟨-, ⟨n, -, -, rfl⟩, hline, hcolumn, hfrom⟩ := hbreak
  refine ⟨⟨done ++ [before], ?_, by simp [hline, hdone]⟩, by simp, by simp [hcolumn], fun ch hch => ?_⟩
  · rw [hlines, hfrom]
    simp
  · rw [rest_advance] at hch
    exact hallowed ch (List.mem_of_mem_drop hch)

/-- The characters up to the next break belong to the line of the cursor. -/
theorem StandsIn.advance {n : Nat} (h : c.StandsIn lines before) (hn : n ≤ c.rest.length)
    (hline : ∀ ch ∈ c.rest.take n, isBreak ch = false) :
    (c.advance n).StandsIn lines (before ++ c.rest.take n) ∧ (c.advance n).line = c.line := by
  induction n generalizing c before with
  | zero => simpa using h
  | succ n ih =>
      cases hrest : c.rest with
      | nil => simp [hrest] at hn
      | cons ch rest =>
          rw [hrest] at hline
          obtain ⟨hnext, hsame⟩ := h.step hrest (hline ch (by simp))
          have hstep : c.step.rest = rest := by rw [rest_step, hrest]; rfl
          obtain ⟨hlater, hlast⟩ := ih hnext (by rw [hstep]; simpa [hrest] using hn)
            (by rw [hstep]; exact fun d hd => hline d (by simp [hd]))
          rw [hstep] at hlater
          exact ⟨by simpa [Cursor.advance] using hlater, hlast.trans hsame⟩

/-- A cursor of a text knows the line it stands in, unless it stands between a carriage return and a
line feed. -/
theorem exists_standsIn {text : List Char} (htext : text.all isAllowed = true) (n : Nat)
    (hchar : ((ofText text).advance n).rest.head? ≠ some '\n') :
    ∃ before, ((ofText text).advance n).StandsIn (Text.lines text) before := by
  -- Either the cursor stands in a line, or it is the line feed behind a carriage return that comes next.
  have hstate : (∃ before, ((ofText text).advance n).StandsIn (Text.lines text) before) ∨
      ∃ c before rest, Cursor.StandsIn (Text.lines text) c before ∧ c.rest = '\r' :: '\n' :: rest ∧
        (ofText text).advance n = c.step := by
    clear hchar
    induction n with
    | zero => exact .inl ⟨[], standsIn_ofText htext⟩
    | succ n ih =>
        rw [advance_add]
        change (∃ before, ((ofText text).advance n).step.StandsIn _ before) ∨ ∃ c before rest, _ ∧ _ ∧
          ((ofText text).advance n).step = _
        generalize (ofText text).advance n = c at ih ⊢
        rcases ih with ⟨before, hstands⟩ | ⟨first, before, rest, hstands, hrest, rfl⟩
        · cases hrest : c.rest with
          | nil => exact .inl ⟨before, by rw [step_of_rest_nil hrest]; exact hstands⟩
          | cons ch rest =>
              cases hch : isBreak ch with
              | false => exact .inl ⟨_, (hstands.step hrest hch).1⟩
              | true =>
                  by_cases hpair : ch = '\r' ∧ rest.head? = some '\n'
                  · obtain ⟨rfl, hhead⟩ := hpair
                    obtain ⟨rest, rfl⟩ := List.head?_eq_some_iff.mp hhead
                    exact .inr ⟨c, before, rest, hstands, hrest, rfl⟩
                  · have hbreak : c.BreaksTo '\n' c.step :=
                      breaksTo_step hrest hch (fun h h' => hpair ⟨h, h'⟩) rfl
                    exact .inl ⟨[], hstands.lineBreak hbreak⟩
        · have hbreak : first.lineBreak? = some ('\n', first.advance 2) := by
            simp [lineBreak?, hrest]
          exact .inl ⟨[], hstands.lineBreak (breaksTo_of_lineBreak? hbreak)⟩
  rcases hstate with hstands | ⟨c, before, rest, -, hrest, hstep⟩
  · exact hstands
  · rw [hstep, step_of_pair hrest] at hchar
    simp at hchar

/-- The line around a cursor. -/
theorem StandsIn.line_eq (h : c.StandsIn lines before) (hrest : before ≠ [] ∨ c.rest ≠ []) :
    lines[c.line]? = some (before ++ c.rest.takeWhile noBreak) := by
  obtain ⟨⟨done, hlines, hdone⟩, -, -, hallowed⟩ := h
  have htake : c.rest.takeWhile (fun ch => !Text.endsLine ch) = c.rest.takeWhile noBreak :=
    takeWhile_congr fun ch hch => by rw [noBreak, endsLine_eq_isBreak (hallowed ch hch)]
  rw [hlines, List.getElem?_append_right (Nat.le_of_eq hdone), hdone, Nat.sub_self,
    ← List.head?_eq_getElem?, Text.head?_linesFrom (by simpa using hrest), htake]
  simp

end Cursor

end Yaml

end FormulaLint
