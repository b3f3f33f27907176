import FormulaLint.Proofs.Places
import FormulaLint.Proofs.Yaml.Verbatim
import Mathlib.Data.List.Infix

/-!
# The lines of block scalars

The header of a block scalar takes the rest of its line.  The lines behind it stand in the text behind
their indentation; a literal scalar is these lines, with the breaks between them.

Main results:

- Theorem {lit}`blockLines_cases`: what reading one line of a block does.
- Theorem {lit}`laid_blockLines`: the lines of a literal block stand in the text.
- Theorem {lit}`laid_blockScalar`: a block scalar that starts with an equals sign does so in the line
  behind its header.
-/

namespace FormulaLint.Yaml.Cursor

variable {P : Char → Prop} {c c' : Cursor} {lines : List (List Char)} {before : List Char}

/-- Moving on in a line. -/
theorem StandsIn.passes (h : c.StandsIn lines before) (hpasses : c.Passes P c')
    (hP : ∀ ch, P ch → isBreak ch = false) :
    ∃ passed, c.rest = passed ++ c'.rest ∧ (∀ ch ∈ passed, P ch) ∧
      c'.StandsIn lines (before ++ passed) ∧ c'.line = c.line := by
  obtain ⟨n, hn, rfl, hall⟩ := hpasses
  exact ⟨c.rest.take n, by simp, hall, h.advance hn fun ch hch => hP ch (hall ch hch)⟩

/-! ## Headers -/

/-- The end of a line: a break, or the end of the text. -/
theorem passes_ignoredLine (h : c.ignoredLine = .ok c') :
    ∃ d, c.Passes (isBreak · = false) d ∧
      ((∃ br, d.BreaksTo br c') ∨ c' = d ∧ d.peek = endOfText) := by
  simp only [ignoredLine] at h
  split at h
  · rename_i hend
    obtain rfl := Except.ok.inj h
    have hcomment : c.Passes (isBreak · = false) c.skipSpaces.skipComment := by
      refine (passes_skipSpaces c).mono (by rintro ch rfl; rfl) |>.trans ?_
      unfold skipComment
      split
      · exact passes_takeWhile fun ch hch => by simpa using hch
      · exact .refl _ _
    refine ⟨_, hcomment, ?_⟩
    unfold skipBreak
    split
    · exact .inl ⟨_, breaksTo_of_lineBreak? ‹_›⟩
    · rename_i hnone
      simp only [endsLine, Bool.or_eq_true, beq_iff_eq] at hend
      refine .inr ⟨rfl, hend.resolve_right fun hbreak => ?_⟩
      have hne : c.skipSpaces.skipComment.peek ≠ endOfText := fun heq => by
        rw [heq] at hbreak
        exact absurd hbreak (by decide)
      simp [lineBreak?_eq_none_iff.mp hnone _ (head?_of_peek rfl hne)] at hbreak
  · simp at h

theorem passes_chomping {chomping : Chomping} (h : c.chomping? = some chomping) :
    c.Passes (isBreak · = false) c.step := by
  refine passes_step_of_peek ?_
  unfold chomping? at h
  split at h
  · rw [‹c.peek = '+'›]; rfl
  · split at h
    · rw [‹c.peek = '-'›]; rfl
    · simp at h

theorem passes_increment {n : Nat} (h : c.increment? = .ok (some n)) :
    c.Passes (isBreak · = false) c.step ∧ 0 < n := by
  unfold increment? at h
  split at h
  · simp at h
  · rename_i hzero
    split at h
    · rename_i hdigit
      have hn : n = c.peek.toNat - 48 := by simpa using h.symm
      simp only [Char.isDigit, Bool.and_eq_true, decide_eq_true_eq] at hdigit
      have hle : 48 ≤ c.peek.toNat ∧ c.peek.toNat ≤ 57 := hdigit
      have hne : c.peek.toNat ≠ 48 := fun heq => hzero (Char.toNat_inj.mp heq)
      refine ⟨passes_step_of_peek ?_, by omega⟩
      have hcode : ∀ d : Char, d.toNat < 48 ∨ 57 < d.toNat → (c.peek == d) = false := by
        intro d hd
        refine beq_eq_false_iff_ne.mpr fun heq => ?_
        rw [heq] at hle
        omega
      simp [isBreak, hcode]
    · simp at h

/-- The header of a block scalar is the rest of its line. -/
theorem passes_blockHeader {header : BlockHeader} (h : c.blockHeader = .ok (header, c')) :
    ∃ d, c.Passes (isBreak · = false) d ∧ d.ignoredLine = .ok c' ∧ ∀ n ∈ header.increment, 0 < n := by
  have hline : ∀ {header' : BlockHeader} {d : Cursor},
      (if endsWord d.peek then d.ignoredLine >>= fun c => pure (header', c)
        else .error .malformed : Except ReadError (BlockHeader × Cursor)) = .ok (header, c') →
      d.ignoredLine = .ok c' ∧ header' = header := by
    intro header' d h
    split at h
    · obtain ⟨d', hline, h⟩ := bind_eq_ok_iff.mp h
      obtain ⟨rfl, rfl⟩ := Prod.mk.inj (Except.ok.inj h)
      exact ⟨hline, rfl⟩
    · simp at h
  simp only [blockHeader, pure_bind] at h
  split at h
  · rename_i hfirst
    have hchomping := passes_chomping hfirst
    obtain ⟨increment, hincrement, h⟩ := bind_eq_ok_iff.mp h
    split at h
    · obtain ⟨hread, rfl⟩ := hline h
      obtain ⟨hstep, hpos⟩ := passes_increment hincrement
      exact ⟨_, hchomping.trans hstep, hread, by simpa using hpos⟩
    · obtain ⟨hread, rfl⟩ := hline h
      exact ⟨_, hchomping, hread, by simp⟩
  · obtain ⟨increment, hincrement, h⟩ := bind_eq_ok_iff.mp h
    split at h
    · obtain ⟨hstep, hpos⟩ := passes_increment hincrement
      split at h
      · rename_i hbehind
        obtain ⟨hread, rfl⟩ := hline h
        exact ⟨_, hstep.trans (passes_chomping hbehind), hread, by simpa using hpos⟩
      · obtain ⟨hread, rfl⟩ := hline h
        exact ⟨_, hstep, hread, by simpa using hpos⟩
    · obtain ⟨hread, rfl⟩ := hline h
      exact ⟨_, .refl _ c, hread, by simp⟩

/-! ## Blank lines -/

/-- Blank lines from the start of a line on, given by their breaks, and the indentation of the line
behind them. -/
structure Blanks (c : Cursor) (breaks : List Char) (c' : Cursor) : Prop where
  reaches : c.Reaches c'
  isBreak : ∀ br ∈ breaks, Yaml.isBreak br = true
  stands : ∀ {lines before}, c.StandsIn lines before → (∀ ch ∈ before, ch = ' ') →
    ∃ spaces, (∀ ch ∈ spaces, ch = ' ') ∧ c'.StandsIn lines spaces ∧ c'.line = c.line + breaks.length

namespace Blanks

variable {breaks : List Char} {d e : Cursor} {br : Char}

/-- Nothing but indentation. -/
theorem of_passes (h : c.Passes (· = ' ') c') : c.Blanks [] c' where
  reaches := h.reaches
  isBreak := by simp
  stands hstands hbefore := by
    obtain ⟨passed, -, hpassed, hstands, hline⟩ := hstands.passes h (by rintro ch rfl; rfl)
    exact ⟨_, fun ch hch => (List.mem_append.mp hch).elim (hbefore ch) (hpassed ch), hstands,
      by simpa using hline⟩

/-- More indentation in front. -/
theorem space (h : c.Passes (· = ' ') d) (hrest : d.Blanks breaks c') : c.Blanks breaks c' where
  reaches := h.reaches.trans hrest.reaches
  isBreak := hrest.isBreak
  stands hstands hbefore := by
    obtain ⟨passed, -, hpassed, hstands, hline⟩ := hstands.passes h (by rintro ch rfl; rfl)
    rw [← hline]
    exact hrest.stands hstands fun ch hch => (List.mem_append.mp hch).elim (hbefore ch) (hpassed ch)

/-- A blank line in front. -/
theorem cons (h : c.Passes (· = ' ') d) (hbreak : d.BreaksTo br e) (hrest : e.Blanks breaks c') :
    c.Blanks (br :: breaks) c' where
  reaches := by
    obtain ⟨n, -, -, rfl⟩ := hbreak.passes
    exact (h.reaches.trans (reaches_advance d n)).trans hrest.reaches
  isBreak := by simpa using ⟨hbreak.isBreak, hrest.isBreak⟩
  stands hstands hbefore := by
    obtain ⟨passed, -, hpassed, hstands, hline⟩ := hstands.passes h (by rintro ch rfl; rfl)
    obtain ⟨spaces, hspaces, hstands, hlast⟩ := hrest.stands (hstands.lineBreak hbreak) (by simp)
    refine ⟨spaces, hspaces, hstands, ?_⟩
    rw [hlast, hbreak.line_eq, hline, List.length_cons]
    omega

end Blanks

/-- A break takes characters. -/
theorem BreaksTo.length_lt {br : Char} (h : c.BreaksTo br c') : c'.rest.length < c.rest.length := by
  obtain ⟨n, hpos, hn, rfl⟩ := h.passes
  rw [rest_advance, List.length_drop]
  omega

theorem passes_skipIndent (c : Cursor) (indent : Nat) : c.Passes (· = ' ') (c.skipIndent indent) := by
  have hle := Nat.min_le_left (c.rest.takeWhile (· == ' ')).length (indent - c.column)
  refine ⟨_, hle.trans (List.takeWhile_prefix _).length_le, rfl, fun ch hch => ?_⟩
  have hmem := (List.take_subset_take_left c.rest hle) hch
  rw [← List.prefix_iff_eq_take.mp (List.takeWhile_prefix _)] at hmem
  simpa using List.all_eq_true.mp List.all_takeWhile ch hmem

/-- The blank lines of a block with a known indentation. -/
theorem blanks_blockBreaks {indent fuel : Nat} {read breaks : List Char}
    (h : blockBreaks indent fuel read c = (breaks, c')) :
    ∃ more, breaks = read.reverse ++ more ∧ c.Blanks more c' ∧
      (c.rest.length < fuel → c'.lineBreak? = none) := by
  induction fuel generalizing read c with
  | zero =>
      obtain ⟨rfl, rfl⟩ := Prod.mk.inj h
      exact ⟨[], by simp, .of_passes (.refl _ _), by simp⟩
  | succ fuel ih =>
      have hindent := passes_skipIndent c indent
      simp only [blockBreaks] at h
      split at h
      · rename_i br after hbreak
        obtain ⟨more, rfl, hmore, hnone⟩ := ih h
        have hlength := (breaksTo_of_lineBreak? hbreak).length_lt
        obtain ⟨n, hn, hskip, -⟩ := hindent
        rw [hskip, rest_advance, List.length_drop] at hlength
        exact ⟨br :: more, by simp, .cons (passes_skipIndent c indent) (breaksTo_of_lineBreak? hbreak) hmore,
          fun hfuel => hnone (by omega)⟩
      · obtain ⟨rfl, rfl⟩ := Prod.mk.inj h
        exact ⟨[], by simp, .of_passes hindent, fun _ => ‹_›⟩

/-- The blank lines of a block whose indentation is found out. -/
theorem blanks_blockIndentation {fuel deepest deepest' : Nat} {read breaks : List Char}
    (h : blockIndentation fuel read deepest c = (breaks, deepest', c')) :
    ∃ more, breaks = read.reverse ++ more ∧ c.Blanks more c' ∧
      (c.rest.length < fuel → c'.lineBreak? = none) := by
  induction fuel generalizing read deepest c with
  | zero =>
      simp only [blockIndentation, Prod.mk.injEq] at h
      obtain ⟨rfl, -, rfl⟩ := h
      exact ⟨[], by simp, .of_passes (.refl _ _), by simp⟩
  | succ fuel ih =>
      simp only [blockIndentation] at h
      split at h
      · rename_i hpeek
        obtain ⟨more, rfl, hmore, hnone⟩ := ih h
        obtain ⟨rest, hrest⟩ := rest_of_peek hpeek (by decide)
        refine ⟨more, rfl, hmore.space (passes_step_of_peek hpeek), fun hfuel => hnone ?_⟩
        rw [rest_step, hrest]
        rw [hrest] at hfuel
        simpa using hfuel
      · split at h
        · rename_i br after hbreak
          obtain ⟨more, rfl, hmore, hnone⟩ := ih h
          have hlength := (breaksTo_of_lineBreak? hbreak).length_lt
          exact ⟨br :: more, by simp, .cons (.refl _ _) (breaksTo_of_lineBreak? hbreak) hmore,
            fun hfuel => hnone (by omega)⟩
        · simp only [Prod.mk.injEq] at h
          obtain ⟨rfl, -, rfl⟩ := h
          exact ⟨[], by simp, .of_passes (.refl _ _), fun _ => ‹_›⟩

/-! ## Lines of text -/

/-- One line of a block from its text on: the text, the break behind it, and the blank lines behind
that; at the end of the text there is no break. -/
structure ReadsLine (c : Cursor) (line last breaks : List Char) (c' : Cursor) : Prop where
  line_eq : line = c.rest.takeWhile noBreak
  ends : (∃ br d, last = [br] ∧ (c.advance line.length).BreaksTo br d ∧ d.Blanks breaks c') ∨
    (last = [] ∧ (c.advance line.length).rest = [] ∧ (c.advance line.length).Blanks breaks c')

/-- A line without a break is the last one. -/
theorem rest_eq_nil_of_lineBreak? (h : (c.takeWhile fun ch => !isBreak ch).2.lineBreak? = none) :
    (c.takeWhile fun ch => !isBreak ch).2.rest = [] := by
  rw [lineBreak?_eq_none_iff] at h
  simp only [takeWhile, rest_advance] at h ⊢
  have hdrop : c.rest.drop (c.rest.takeWhile fun ch => !isBreak ch).length =
      c.rest.dropWhile fun ch => !isBreak ch := by
    have hsplit := List.takeWhile_append_dropWhile (p := fun ch => !isBreak ch) (l := c.rest)
    exact List.append_cancel_left
      ((List.prefix_append_drop (List.takeWhile_prefix _)).symm.trans hsplit.symm)
  rw [hdrop] at h ⊢
  cases hrest : c.rest.dropWhile fun ch => !isBreak ch with
  | nil => rfl
  | cons ch rest =>
      have hbreak := List.head_dropWhile_not (fun ch => !isBreak ch) (l := c.rest) (by simp [hrest])
      simp only [hrest, List.head_cons] at hbreak
      simp [h ch (by simp [hrest])] at hbreak

/-- Reading goes on with a line of the block, or nothing is left of it. -/
theorem blockLines_cases (folded : Bool) (indent fuel : Nat) (text last breaks : List Char)
    (c : Cursor) :
    (¬ (c.column = indent ∧ c.peek ≠ endOfText) ∧
      blockLines folded indent (fuel + 1) text last breaks c = (text, last, breaks, c)) ∨
    (c.column = indent ∧ c.peek ≠ endOfText ∧ ∃ line last' breaks' c',
      c.ReadsLine line last' breaks' c' ∧
      (blockLines folded indent (fuel + 1) text last breaks c =
          (text ++ breaks ++ line, last', breaks', c') ∨
        c'.column = indent ∧ c'.peek ≠ endOfText ∧ ∃ joint, (folded = false → joint = last') ∧
          blockLines folded indent (fuel + 1) text last breaks c =
            blockLines folded indent fuel (text ++ breaks ++ line ++ joint) last' breaks' c')) := by
  by_cases hgo : c.column = indent ∧ c.peek ≠ endOfText
  · refine .inr ⟨hgo.1, hgo.2, ?_⟩
    have hblanks : ∀ d : Cursor, d.Blanks (d.blockBreaks indent (d.rest.length + 1) []).1
        (d.blockBreaks indent (d.rest.length + 1) []).2 := fun d => by
      obtain ⟨more, hmore, hblanks, -⟩ :=
        blanks_blockBreaks (Prod.mk.eta (p := d.blockBreaks indent (d.rest.length + 1) [])).symm
      rw [hmore]
      exact hblanks
    cases hbreak : (c.takeWhile fun ch => !isBreak ch).2.lineBreak? with
    | none =>
        simp only [blockLines, if_pos hgo, hbreak]
        refine ⟨_, _, _, _, ⟨rfl, .inr ⟨rfl, rest_eq_nil_of_lineBreak? hbreak, hblanks _⟩⟩, ?_⟩
        split
        · rename_i hnext
          exact .inr ⟨hnext.1, hnext.2, _, by rintro rfl; simp, rfl⟩
        · exact .inl rfl
    | some found =>
        obtain ⟨br, after⟩ := found
        simp only [blockLines, if_pos hgo, hbreak]
        refine ⟨_, _, _, _, ⟨rfl, .inl ⟨br, _, rfl, breaksTo_of_lineBreak? hbreak, hblanks _⟩⟩, ?_⟩
        split
        · rename_i hnext
          exact .inr ⟨hnext.1, hnext.2, _, by rintro rfl; simp, rfl⟩
        · exact .inl rfl
  · refine .inl ⟨hgo, ?_⟩
    simp only [blockLines, if_neg hgo]

theorem ReadsLine.reaches {line last breaks : List Char} (h : c.ReadsLine line last breaks c') :
    c.Reaches c' := by
  obtain ⟨-, ⟨br, d, -, hbreak, hblanks⟩ | ⟨-, -, hblanks⟩⟩ := h
  · obtain ⟨n, -, -, rfl⟩ := hbreak.passes
    exact ((reaches_advance c _).trans (reaches_advance _ n)).trans hblanks.reaches
  · exact (reaches_advance c _).trans hblanks.reaches

theorem reaches_blockLines (folded : Bool) (indent fuel : Nat) (text last breaks : List Char)
    (c : Cursor) : c.Reaches (blockLines folded indent fuel text last breaks c).2.2.2 := by
  induction fuel generalizing text last breaks c with
  | zero => exact .refl c
  | succ fuel ih =>
      rcases blockLines_cases folded indent fuel text last breaks c with
        ⟨-, heq⟩ | ⟨-, -, line, last', breaks', c', hline, heq | ⟨-, -, joint, -, heq⟩⟩
      · rw [heq]
        exact .refl c
      · rw [heq]
        exact hline.reaches
      · rw [heq]
        exact hline.reaches.trans (ih _ _ _ _)

/-- What is read of a block starts with what was read before. -/
theorem prefix_blockLines (folded : Bool) (indent fuel : Nat) (text last breaks : List Char)
    (c : Cursor) : text <+: (blockLines folded indent fuel text last breaks c).1 := by
  induction fuel generalizing text last breaks c with
  | zero => exact List.prefix_rfl
  | succ fuel ih =>
      rcases blockLines_cases folded indent fuel text last breaks c with
        ⟨-, heq⟩ | ⟨-, -, line, last', breaks', c', -, heq | ⟨-, -, joint, -, heq⟩⟩
      · rw [heq]
      · rw [heq]
        exact ⟨breaks ++ line, by simp⟩
      · rw [heq]
        exact .trans ⟨breaks ++ line ++ joint, by simp⟩ (ih _ _ _ _)

/-- The breaks behind the lines of a block are breaks. -/
theorem isBreak_of_mem_blockLines {folded : Bool} {indent fuel : Nat} {text last breaks : List Char}
    {c : Cursor} (hlast : ∀ br ∈ last ++ breaks, isBreak br = true) :
    ∀ br ∈ (blockLines folded indent fuel text last breaks c).2.1 ++
      (blockLines folded indent fuel text last breaks c).2.2.1, isBreak br = true := by
  induction fuel generalizing text last breaks c with
  | zero => exact hlast
  | succ fuel ih =>
      have hread : ∀ {line last' breaks' : List Char} {c' : Cursor},
          c.ReadsLine line last' breaks' c' → ∀ br ∈ last' ++ breaks', isBreak br = true := by
        rintro line last' breaks' c' ⟨-, ⟨br, d, rfl, hbreak, hblanks⟩ | ⟨rfl, -, hblanks⟩⟩
        · simpa using ⟨hbreak.isBreak, hblanks.isBreak⟩
        · simpa using hblanks.isBreak
      rcases blockLines_cases folded indent fuel text last breaks c with
        ⟨-, heq⟩ | ⟨-, -, line, last', breaks', c', hline, heq | ⟨-, -, joint, -, heq⟩⟩
      · rw [heq]
        exact hlast
      · rw [heq]
        exact hread hline
      · rw [heq]
        exact ih (hread hline)

/-- A block that starts with an equals sign has it at the start of its first line. -/
theorem starts_of_blockLines {folded : Bool} {indent fuel : Nat} {breaks ending : List Char}
    (hbreaks : ∀ br ∈ breaks, isBreak br = true) (hnone : c.lineBreak? = none)
    (hending : ∀ br ∈ ending.head?, isBreak br = true)
    (h : ((blockLines folded indent (fuel + 1) [] [] breaks c).1 ++ ending).head? = some '=') :
    breaks = [] ∧ c.column = indent ∧ c.rest.head? = some '=' := by
  have hequals : isBreak '=' ≠ true := by decide
  have hgo : ∀ {line rest : List Char}, c.peek ≠ endOfText → line = c.rest.takeWhile noBreak →
      ((breaks ++ line ++ rest).head? = some '=') → breaks = [] ∧ c.rest.head? = some '=' := by
    rintro line rest hpeek rfl hhead
    obtain ⟨ch, hch⟩ : ∃ ch, c.rest.head? = some ch := ⟨_, head?_of_peek rfl hpeek⟩
    obtain ⟨after, hrest⟩ := List.head?_eq_some_iff.mp hch
    have hbreak := lineBreak?_eq_none_iff.mp hnone ch hch
    rw [hrest, List.takeWhile_cons_of_pos (by simp [noBreak, hbreak])] at hhead
    cases breaks with
    | nil => exact ⟨rfl, by simpa [hch] using hhead⟩
    | cons br more =>
        obtain rfl : br = '=' := by simpa using hhead
        exact absurd (hbreaks _ List.mem_cons_self) hequals
  rcases blockLines_cases folded indent fuel [] [] breaks c with
    ⟨-, heq⟩ | ⟨hcolumn, hpeek, line, last', breaks', c', hline, hnext⟩
  · rw [heq] at h
    exact absurd (hending _ h) hequals
  · have hprefix : breaks ++ line <+:
        (blockLines folded indent (fuel + 1) [] [] breaks c).1 := by
      rcases hnext with heq | ⟨-, -, joint, -, heq⟩
      · rw [heq]
        exact List.prefix_rfl
      · rw [heq]
        exact .trans ⟨joint, by simp⟩ (prefix_blockLines _ _ _ _ _ _ _)
    obtain ⟨more, hmore⟩ := hprefix
    rw [← hmore, List.append_assoc] at h
    obtain ⟨hnil, hhead⟩ := hgo hpeek hline.line_eq h
    exact ⟨hnil, hcolumn, hhead⟩

/-- Behind nothing but spaces the column is their number. -/
theorem StandsIn.column_eq {spaces : List Char} (h : c.StandsIn lines spaces)
    (hspaces : ∀ ch ∈ spaces, ch = ' ') : c.column = spaces.length :=
  h.column_eq_length fun hmark => absurd (hspaces _ hmark) (by decide)

namespace ReadsLine

variable {line last breaks spaces : List Char}

theorem noBreak (h : c.ReadsLine line last breaks c') : ∀ ch ∈ line, isBreak ch = false := by
  intro ch hch
  rw [h.line_eq] at hch
  simpa [Cursor.noBreak] using List.all_eq_true.mp List.all_takeWhile ch hch

theorem ne_newline (h : c.ReadsLine line last breaks c') : ∀ ch ∈ line, ch ≠ '\n' := by
  rintro ch hch rfl
  exact absurd (h.noBreak _ hch) (by decide)

/-- A line of a block stands in the line of the text behind its indentation. -/
theorem laid (h : c.ReadsLine line last breaks c') (hstands : c.StandsIn lines spaces)
    (hne : c.rest ≠ []) (indent : Nat) : Laid lines indent c.line spaces.length line := by
  refine laid_of_prefix (hstands.line_eq (.inr hne)) ?_ h.ne_newline
  rw [List.drop_left, h.line_eq]

/-- Behind a line of a block the next one starts. -/
theorem stands (h : c.ReadsLine line last breaks c') (hstands : c.StandsIn lines spaces)
    (hpeek : c'.peek ≠ endOfText) :
    ∃ br spaces', last = [br] ∧ isBreak br = true ∧ (∀ br ∈ breaks, isBreak br = true) ∧
      (∀ ch ∈ spaces', ch = ' ') ∧ c'.StandsIn lines spaces' ∧
      c'.line = c.line + 1 + breaks.length := by
  have hprefix : line <+: c.rest := h.line_eq ▸ List.takeWhile_prefix _
  obtain ⟨hhere, hsame⟩ := hstands.advance hprefix.length_le
    (by rw [← List.prefix_iff_eq_take.mp hprefix]; exact h.noBreak)
  rcases h.ends with ⟨br, d, rfl, hbreak, hblanks⟩ | ⟨-, hnil, hblanks⟩
  · obtain ⟨spaces', hspaces', hstands', hline'⟩ :=
      hblanks.stands (hhere.lineBreak hbreak) (by simp)
    exact ⟨br, spaces', rfl, hbreak.isBreak, hblanks.isBreak, hspaces', hstands',
      by rw [hline', hbreak.line_eq, hsame]⟩
  · obtain ⟨n, -, rfl, -⟩ := hblanks.reaches
    exact absurd (peek_of_rest_nil (by rw [rest_advance, hnil, List.drop_nil])) hpeek

end ReadsLine

/-- The lines of a literal block stand in the text, as long as its breaks are line feeds. -/
theorem laid_blockLines {first indent fuel : Nat} {text last breaks spaces : List Char}
    (hstands : c.StandsIn lines spaces) (hspaces : ∀ ch ∈ spaces, ch = ' ')
    (hbreaks : ∀ br ∈ breaks, isBreak br = true)
    (htext : (∀ ch ∈ text, isBreak ch = true → ch = '\n') → Laid lines indent first indent text)
    (hbehind : (∀ ch ∈ text ++ breaks, isBreak ch = true → ch = '\n') →
      placeBehind indent first indent (text ++ breaks) = (c.line, indent))
    (h : ∀ ch ∈ (blockLines false indent fuel text last breaks c).1, isBreak ch = true → ch = '\n') :
    Laid lines indent first indent (blockLines false indent fuel text last breaks c).1 := by
  induction fuel generalizing text last breaks c spaces with
  | zero => exact htext h
  | succ fuel ih =>
      rcases blockLines_cases false indent fuel text last breaks c with
        ⟨-, heq⟩ | ⟨hcolumn, hpeek, line, last', breaks', c', hline, hnext⟩
      · rw [heq] at h ⊢
        exact htext h
      · have hne : c.rest ≠ [] := fun hnil => hpeek (peek_of_rest_nil hnil)
        have hindent : spaces.length = indent := (hstands.column_eq hspaces).symm.trans hcolumn
        have hbefore : (∀ ch ∈ text ++ breaks, isBreak ch = true → ch = '\n') →
            Laid lines indent first indent (text ++ breaks) := fun hall => by
          rw [laid_append]
          exact ⟨htext fun d hd => hall d (List.mem_append_left _ hd), laid_of_newlines fun d hd =>
            hall d (List.mem_append_right _ hd) (hbreaks d hd)⟩
        have hlaid : (∀ ch ∈ text ++ breaks ++ line, isBreak ch = true → ch = '\n') →
            Laid lines indent first indent (text ++ breaks ++ line) ∧
              placeBehind indent first indent (text ++ breaks ++ line) =
                (c.line, indent + line.length) := fun hall => by
          have hplace := hbehind fun d hd => hall d (List.mem_append_left _ hd)
          rw [laid_append, placeBehind_append (text ++ breaks) line, hplace]
          exact ⟨⟨hbefore fun d hd => hall d (List.mem_append_left _ hd),
            hindent ▸ hline.laid hstands hne indent⟩, placeBehind_of_line hline.ne_newline⟩
        rcases hnext with heq | ⟨-, hpeek', joint, hjoint, heq⟩
        · rw [heq] at h ⊢
          exact (hlaid h).1
        · obtain rfl := hjoint rfl
          rw [heq] at h ⊢
          obtain ⟨br, spaces', rfl, hbr, hbreaks', hspaces', hstands', hline'⟩ :=
            hline.stands hstands hpeek'
          refine ih hstands' hspaces' hbreaks' (fun hall => ?_) (fun hall => ?_) h
          · obtain rfl := hall br (by simp) hbr
            rw [laid_append]
            exact ⟨(hlaid fun d hd => hall d (List.mem_append_left _ hd)).1, by simp [Laid]⟩
          · obtain rfl := hall br (by simp) hbr
            have hplace := (hlaid fun d hd => hall d
              (List.mem_append_left _ (List.mem_append_left _ hd))).2
            rw [placeBehind_append _ breaks', placeBehind_append _ ['\n'], hplace, placeBehind, if_pos rfl, placeBehind,
              placeBehind_of_newlines fun d hd => hall d (List.mem_append_right _ hd) (hbreaks' d hd),
              hline']

/-! ## Block scalars -/

/-- A block scalar consists of its header, blank lines and lines of text. -/
theorem blockScalar_cases {folded : Bool} {indent : Int} {value : String}
    (h : c.blockScalar folded indent = .ok (value, c')) :
    ∃ header d indent' breaks e fuel ending, c.step.blockHeader = .ok (header, d) ∧ 0 < indent' ∧
      d.Blanks breaks e ∧ e.lineBreak? = none ∧
      (∀ br ∈ ending, br ∈ (blockLines folded indent' (fuel + 1) [] [] breaks e).2.1 ++
        (blockLines folded indent' (fuel + 1) [] [] breaks e).2.2.1) ∧
      value.toList = (blockLines folded indent' (fuel + 1) [] [] breaks e).1 ++ ending ∧
      c' = (blockLines folded indent' (fuel + 1) [] [] breaks e).2.2.2 := by
  obtain ⟨⟨header, d⟩, hheader, h⟩ := bind_eq_ok_iff.mp h
  obtain ⟨-, -, -, hpos⟩ := passes_blockHeader hheader
  have hmem : ∀ {last breaks ending : List Char},
      (ending = last ∨ ending = [] ∨ ending = last ++ breaks) → ∀ br ∈ ending, br ∈ last ++ breaks := by
    rintro last breaks ending (rfl | rfl | rfl) br hbr
    · exact List.mem_append_left _ hbr
    · cases hbr
    · exact hbr
  dsimp only at h
  split at h
  · rename_i n hincrement
    obtain ⟨more, hmore, hblanks, hnone⟩ := blanks_blockBreaks
      (Prod.mk.eta (p := d.blockBreaks ((max 1 (indent + 1)).toNat + n - 1) (d.rest.length + 1) [])).symm
    have hn := hpos n hincrement
    obtain ⟨hvalue, hc⟩ := Prod.mk.inj (Except.ok.inj h)
    refine ⟨header, d, _, _, _, d.rest.length, _, hheader, by omega, hmore ▸ hblanks,
      hnone (Nat.lt_succ_self _), hmem ?_, (congrArg String.toList hvalue.symm).trans String.toList_ofList,
      hc.symm⟩
    cases header.chomping with
    | clip => exact .inl rfl
    | strip => exact .inr (.inl rfl)
    | keep => exact .inr (.inr rfl)
  · obtain ⟨more, hmore, hblanks, hnone⟩ :=
      blanks_blockIndentation (Eq.refl (d.blockIndentation (d.rest.length + 1) [] 0))
    obtain ⟨hvalue, hc⟩ := Prod.mk.inj (Except.ok.inj h)
    refine ⟨header, d, _, _, _, d.rest.length, _, hheader, by omega, hmore ▸ hblanks,
      hnone (Nat.lt_succ_self _), hmem ?_, (congrArg String.toList hvalue.symm).trans String.toList_ofList,
      hc.symm⟩
    cases header.chomping with
    | clip => exact .inl rfl
    | strip => exact .inr (.inl rfl)
    | keep => exact .inr (.inr rfl)

theorem reaches_blockScalar {folded : Bool} {indent : Int} {value : String}
    (h : c.blockScalar folded indent = .ok (value, c')) : c.Reaches c' := by
  obtain ⟨header, d, indent', breaks, e, fuel, ending, hheader, -, hblanks, -, -, -, rfl⟩ :=
    blockScalar_cases h
  obtain ⟨f, hf, hline, -⟩ := passes_blockHeader hheader
  exact ((((reaches_step c).trans hf.reaches).trans (reaches_ignoredLine hline)).trans
    hblanks.reaches).trans (reaches_blockLines _ _ _ _ _ _ _)

/-- A block scalar that starts with an equals sign does so in the line behind its header.  When it is
literal and its breaks are line feeds, its lines stand in the text. -/
theorem laid_blockScalar {folded : Bool} {indent : Int} {value : String}
    (h : c.blockScalar folded indent = .ok (value, c')) (hmark : isBreak c.peek = false)
    (hstands : c.StandsIn lines before) (hvalue : value.toList.head? = some '=') :
    ∃ n rest, 0 < n ∧ lines[c.line + 1]? = some (List.replicate n ' ' ++ '=' :: rest) ∧
      (folded = false → (∀ ch ∈ value.toList, isBreak ch = true → ch = '\n') →
        Laid lines n (c.line + 1) n value.toList) := by
  obtain ⟨header, d, indent', breaks, e, fuel, ending, hheader, hpos, hblanks, hnone, hending, htext, -⟩ :=
    blockScalar_cases h
  have hbreaks : ∀ br ∈ (blockLines folded indent' (fuel + 1) [] [] breaks e).2.1 ++
      (blockLines folded indent' (fuel + 1) [] [] breaks e).2.2.1, isBreak br = true :=
    isBreak_of_mem_blockLines (by simpa using hblanks.isBreak)
  rw [htext] at hvalue
  obtain ⟨rfl, hcolumn, hhead⟩ := starts_of_blockLines hblanks.isBreak hnone
    (fun br hbr => hbreaks br (hending br (List.mem_of_mem_head? hbr))) hvalue
  -- The header takes the rest of its line, so that the text starts in the next one.
  obtain ⟨f, hf, hline, -⟩ := passes_blockHeader hheader
  obtain ⟨g, hg, hbreak⟩ := passes_ignoredLine hline
  obtain ⟨passed, -, -, hstands', hsame⟩ :=
    hstands.passes (((passes_step_of_peek hmark).trans hf).trans hg) fun _ h => h
  obtain ⟨rest, hrest⟩ := List.head?_eq_some_iff.mp hhead
  rcases hbreak with ⟨br, hbreak⟩ | ⟨rfl, hpeek⟩
  · obtain ⟨spaces, hspaces, hfirst, hline⟩ := hblanks.stands (hstands'.lineBreak hbreak) (by simp)
    have hnumber : e.line = c.line + 1 := by rw [hline, hbreak.line_eq, hsame, List.length_nil]
    have hindent : spaces.length = indent' := (hfirst.column_eq hspaces).symm.trans hcolumn
    refine ⟨indent', rest.takeWhile noBreak, hpos, ?_, ?_⟩
    · rw [← hnumber, hfirst.line_eq (.inr (by simp [hrest])), hrest,
        List.takeWhile_cons_of_pos (by decide), ← hindent, ← List.eq_replicate_length.mpr hspaces]
    · rintro rfl hvalue
      rw [htext] at hvalue ⊢
      rw [← hnumber, laid_append]
      refine ⟨laid_blockLines hfirst hspaces (by simp) (fun _ => laid_nil) (fun _ => rfl)
        fun ch hch => hvalue ch (List.mem_append_left _ hch), laid_of_newlines fun ch hch => ?_⟩
      exact hvalue ch (List.mem_append_right _ hch) (hbreaks ch (hending ch hch))
  · -- At the end of the text there is no line behind the header.
    have hnil : d.rest = [] := by
      cases hd : d.rest with
      | nil => rfl
      | cons ch more =>
          have hallowed := hstands'.2.2.2 ch (by simp [hd])
          obtain rfl : ch = endOfText := (peek_of_rest_cons hd).symm.trans hpeek
          exact absurd hallowed (by decide)
    obtain ⟨n, -, rfl, -⟩ := hblanks.reaches
    simp [hnil] at hrest

end FormulaLint.Yaml.Cursor
