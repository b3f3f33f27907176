import FormulaLint.Proofs.Document.Columns
import FormulaLint.Proofs.Yaml.Blocks
import FormulaLint.Yaml.Token

/-!
# Scalars as they are written

A node starts at its anchor or tag, if it has one, and at its scalar otherwise.  Anchors and tags are
words; on one line there are only spaces behind them, so that skipping words with their mark and the
spaces behind them leads from the start of the node to the scalar.

Main results:

- Definition {lit}`Spelling.In`: what it means that a text has a scalar written in it.
- Theorem {lit}`Cursor.LeadsTo.propertiesLength_eq`: anchors and tags in front of a scalar are skipped.
- Theorem {lit}`Spelling.In.valueColumn_eq`: the column of a scalar on the line of its node.
-/

namespace FormulaLint.Yaml

namespace Cursor

variable {P : Char → Prop} {c c' first start stop next : Cursor} {lines : List (List Char)}
  {before : List Char}

/-- Lines only go up. -/
theorem Reaches.line_le (h : c.Reaches c') : c.line ≤ c'.line := by
  obtain ⟨n, -, rfl, -⟩ := h
  induction n generalizing c with
  | zero => exact Nat.le_refl _
  | succ n ih =>
      refine Nat.le_trans ?_ ih
      unfold step
      split
      · exact Nat.le_refl _
      · split
        · exact Nat.le_succ _
        · split <;> exact Nat.le_refl _

/-- What lies between two tokens: on one line nothing but spaces. -/
def Gap (c c' : Cursor) : Prop :=
  c.Reaches c' ∧ (c'.line = c.line → c'.rest ≠ [] → c.Passes (· = ' ') c')

/-- The characters that a node with a formula can start with. -/
def opensNode : List Char :=
  ['&', '!', '=', '\'', '"', '|', '>']

/-- An anchor or a tag from its mark on. -/
structure IsProperty (c stop : Cursor) : Prop where
  mark : c.peek = '&' ∨ c.peek = '!'
  word : c.step.Passes (Text.isBlank · = false) stop
  closes : stop.peek ∉ opensNode

/-- Anchors and tags, if any, lead to a scalar. -/
inductive LeadsTo : Cursor → Cursor → Prop
  | here (c : Cursor) : LeadsTo c c
  | property {c stop next start : Cursor} (hproperty : c.IsProperty stop) (hgap : stop.Gap next)
      (hrest : LeadsTo next start) : LeadsTo c start

/-- What is read as a scalar inside or outside of brackets, in a collection of some indentation. -/
def ReadsScalar (c : Cursor) (inFlow : Bool) (indent : Int) (style : ScalarStyle) (value : String)
    (stop : Cursor) : Prop :=
  match style with
  | .plain => ∃ newLine, c.plainScalar inFlow (indent + 1) = (value, newLine, stop)
  | .quoted quotes => c.peek = quotes.char ∧ c.quotedScalar quotes = .ok (value, stop)
  | .literal => c.peek = '|' ∧ c.blockScalar false indent = .ok (value, stop)
  | .folded => c.peek = '>' ∧ c.blockScalar true indent = .ok (value, stop)

theorem LeadsTo.reaches (h : first.LeadsTo start) : first.Reaches start := by
  induction h with
  | here c => exact .refl c
  | property hproperty hgap hrest ih =>
      exact (((reaches_step _).trans hproperty.word.reaches).trans hgap.1).trans ih

/-- A scalar that is a formula starts with one of few characters. -/
theorem ReadsScalar.opens {inFlow : Bool} {indent : Int} {style : ScalarStyle} {value : String}
    (h : c.ReadsScalar inFlow indent style value stop) (hvalue : value.toList.head? = some '=') :
    c.peek ∈ ['=', '\'', '"', '|', '>'] := by
  cases style with
  | plain =>
      obtain ⟨newLine, h⟩ := h
      have hread : (c.plainScalar inFlow (indent + 1)).1.toList.head? = some '=' := by
        rw [h]
        exact hvalue
      obtain ⟨rest, hrest⟩ := List.head?_eq_some_iff.mp (head?_plainScalar hread)
      rw [peek_of_rest_cons hrest]
      exact List.mem_cons_self
  | quoted quotes =>
      rw [h.1]
      cases quotes <;> decide
  | literal =>
      rw [h.1]
      decide
  | folded =>
      rw [h.1]
      decide

/-- Every break is blank. -/
theorem isBlank_of_isBreak {ch : Char} (h : isBreak ch = true) : Text.isBlank ch = true := by
  simp only [isBreak, Bool.or_eq_true, beq_iff_eq] at h
  rcases h with (((rfl | rfl) | rfl) | rfl) | rfl <;> rfl

theorem LeadsTo.opens (h : first.LeadsTo start) (hopens : start.peek ∈ ['=', '\'', '"', '|', '>']) :
    first.peek ∈ opensNode := by
  cases h with
  | here => exact List.mem_cons_of_mem _ (List.mem_cons_of_mem _ hopens)
  | property hproperty => rcases hproperty.mark with h | h <;> rw [h] <;> decide

/-- The next character in the line is the next character. -/
theorem peek_of_mem_head? {ch : Char} (h : ch ∈ (c.rest.takeWhile noBreak).head?) : c.peek = ch := by
  cases hrest : c.rest with
  | nil => simp [hrest] at h
  | cons d rest =>
      rw [hrest, List.takeWhile_cons] at h
      split at h
      · simpa [peek_of_rest_cons hrest] using h
      · simp at h

/-- An anchor or tag, the spaces behind it and what comes next on the same line. -/
theorem IsProperty.shares_line (h : c.IsProperty stop) (hgap : stop.Gap next)
    (hstands : c.StandsIn lines before) (hline : next.line = c.line) (hnext : next.peek ∈ opensNode) :
    ∃ word spaces, (∀ ch ∈ c.peek :: word, Text.isBlank ch = false) ∧ (∀ ch ∈ spaces, ch = ' ') ∧
      spaces ≠ [] ∧
      c.rest.takeWhile noBreak = (c.peek :: word) ++ spaces ++ next.rest.takeWhile noBreak ∧
      next.StandsIn lines (before ++ ((c.peek :: word) ++ spaces)) := by
  have hmark : Text.isBlank c.peek = false ∧ isBreak c.peek = false ∧ c.peek ≠ endOfText := by
    rcases h.mark with h | h <;> rw [h] <;> decide
  have hnoBreak : ∀ ch, Text.isBlank ch = false → isBreak ch = false := fun ch hch =>
    Bool.eq_false_iff.mpr fun hbreak => by simp [isBlank_of_isBreak hbreak] at hch
  -- The word stands in the line.
  obtain ⟨rest, hcons⟩ := rest_of_peek rfl hmark.2.2
  obtain ⟨hstep, hsame⟩ := hstands.step hcons hmark.2.1
  obtain ⟨word, hword, hblank, hstop, hstopLine⟩ := hstep.passes h.word hnoBreak
  -- So do the spaces behind it, because the line does not end in front of what comes next.
  have hne : next.rest ≠ [] := fun hnil => by
    rw [peek_of_rest_nil hnil] at hnext
    exact absurd hnext (by decide)
  obtain ⟨spaces, hspaces, hall, hstandsNext, -⟩ :=
    hstop.passes (hgap.2 (by omega) hne) (by rintro ch rfl; rfl)
  have hspacesNe : spaces ≠ [] := by
    rintro rfl
    refine h.closes ?_
    rw [peek, peekAt, hspaces]
    exact hnext
  have hvisible : ∀ ch ∈ c.peek :: word, Text.isBlank ch = false := by
    simpa using ⟨hmark.1, hblank⟩
  have hchars : c.rest = (c.peek :: word) ++ (spaces ++ next.rest) := by
    rw [← hspaces, List.cons_append, ← hword, rest_step, hcons]
    rfl
  refine ⟨word, spaces, hvisible, hall, hspacesNe, ?_, by simpa using hstandsNext⟩
  rw [hchars, List.takeWhile_append_of_pos, List.takeWhile_append_of_pos, List.append_assoc]
  · intro ch hch
    rw [hall ch hch]
    rfl
  · intro ch hch
    simp [noBreak, hnoBreak ch (hvisible ch hch)]

/-- The anchors and tags in front of a scalar on its line are skipped. -/
theorem LeadsTo.propertiesLength_eq (h : first.LeadsTo start)
    (hopens : start.peek ∈ ['=', '\'', '"', '|', '>']) (hstands : first.StandsIn lines before)
    (hline : start.line = first.line) {fuel : Nat}
    (hfuel : (first.rest.takeWhile noBreak).length ≤ fuel) :
    ∃ passed, start.StandsIn lines (before ++ passed) ∧
      Document.propertiesLength fuel (first.rest.takeWhile noBreak) = passed.length := by
  induction h generalizing before fuel with
  | here c =>
      refine ⟨[], by simpa using hstands, Document.propertiesLength_eq_zero (fun ch hch => ?_) _⟩
      rw [peek_of_mem_head? hch] at hopens
      constructor <;> rintro rfl <;> exact absurd hopens (by decide)
  | @property c stop next start hproperty hgap hrest ih =>
      have hnext := hrest.opens hopens
      have hbefore := (((reaches_step c).trans hproperty.word.reaches).trans hgap.1).line_le
      have hbehind := hrest.reaches.line_le
      obtain ⟨word, spaces, hvisible, hall, hspaces, hchars, hstandsNext⟩ :=
        hproperty.shares_line hgap hstands (by omega) hnext
      rw [hchars] at hfuel ⊢
      obtain ⟨fuel, rfl⟩ : ∃ n, fuel = n + 1 := Nat.exists_eq_succ_of_ne_zero (by
        rintro rfl
        simp at hfuel)
      have hshorter : (next.rest.takeWhile noBreak).length ≤ fuel := by
        simp only [List.length_append, List.length_cons] at hfuel
        omega
      obtain ⟨passed, hstart, hlength⟩ := ih hopens hstandsNext (by omega) hshorter
      refine ⟨(c.peek :: word) ++ spaces ++ passed, by simpa using hstart, ?_⟩
      rw [Document.propertiesLength_property hproperty.mark hvisible hall hspaces ?_, hlength]
      · simp only [List.length_append]
      · rintro ch hch rfl
        rw [peek_of_mem_head? hch] at hnext
        exact absurd hnext (by decide)

/-- No byte order mark stands in front of a cursor when there is none among the first characters of
its line. -/
theorem StandsIn.unmarked (h : c.StandsIn lines before) (hrest : c.rest ≠ [])
    (hmark : ∀ chars ∈ lines[c.line]?, '\ufeff' ∉ chars.take (c.column + 1)) :
    '\ufeff' ∉ before := by
  intro hmem
  obtain ⟨part, more, rfl, hpart⟩ := List.eq_append_cons_of_mem hmem
  have hle : part.length ≤ c.column := by
    rw [h.2.2.1, List.countP_append, countP_eq_length_of_unmarked hpart]
    exact Nat.le_add_right _ _
  refine hmark _ (h.line_eq (.inr hrest)) (List.mem_of_getElem? (i := part.length) ?_)
  rw [List.getElem?_take_of_lt (Nat.lt_succ_of_le hle), List.append_assoc,
    List.getElem?_append_right (Nat.le_refl _)]
  simp

end Cursor

/-- A scalar as it is written in a text: the place where its node starts, which is that of its anchor
or tag if it has one; the place where the scalar itself starts and the one behind it; whether it
stands inside brackets, and the indentation of the collection around it. -/
structure Spelling where
  first : Cursor
  start : Cursor
  stop : Cursor
  inFlow : Bool
  indent : Int
  style : ScalarStyle
  value : String

namespace Spelling

/-- A text has a scalar written in it. -/
structure In (text : List Char) (s : Spelling) : Prop where
  reaches : (Cursor.ofText text).Reaches s.first
  leadsTo : s.first.LeadsTo s.start
  reads : s.start.ReadsScalar s.inFlow s.indent s.style s.value s.stop

variable {text : List Char} {lines : List (List Char)} {s : Spelling}

/-- What can start a node stands in a line of the text. -/
theorem standsIn_of_peek {c : Cursor} (h : (Cursor.ofText text).Reaches c)
    (htext : text.all isAllowed = true) (hpeek : c.peek ∈ Cursor.opensNode) :
    ∃ before, c.StandsIn (Text.lines text) before ∧ c.rest ≠ [] := by
  obtain ⟨n, -, rfl, -⟩ := h
  generalize hc : (Cursor.ofText text).advance n = c at hpeek
  obtain ⟨before, hstands⟩ := Cursor.exists_standsIn htext n (by
    rw [hc]
    intro hhead
    obtain ⟨rest, hrest⟩ := List.head?_eq_some_iff.mp hhead
    rw [Cursor.peek_of_rest_cons hrest] at hpeek
    exact absurd hpeek (by decide))
  refine ⟨before, hc ▸ hstands, fun hnil => ?_⟩
  rw [Cursor.peek_of_rest_nil hnil] at hpeek
  exact absurd hpeek (by decide)

/-- A scalar stands in a line of the text. -/
theorem In.standsIn (h : s.In text) (htext : text.all isAllowed = true)
    (hvalue : s.value.toList.head? = some '=') :
    ∃ before, s.start.StandsIn (Text.lines text) before ∧ s.start.rest ≠ [] :=
  standsIn_of_peek (h.reaches.trans h.leadsTo.reaches) htext
    (List.mem_cons_of_mem _ (List.mem_cons_of_mem _ (h.reads.opens hvalue)))

/-- The place of a scalar in its line, behind the anchors and tags in front of it. -/
theorem In.valueColumn_eq (h : s.In text) (htext : text.all isAllowed = true)
    (hvalue : s.value.toList.head? = some '=') (hline : s.start.line = s.first.line)
    (hmark : ∀ chars ∈ (Text.lines text)[s.start.line]?, '\ufeff' ∉ chars.take (s.start.column + 1)) :
    ∃ before, s.start.StandsIn (Text.lines text) before ∧
      Document.valueColumn ((Text.lines text)[s.first.line]?.getD []) s.first.column =
        before.length := by
  have hopens := h.reads.opens hvalue
  obtain ⟨before, hstands, hne⟩ := standsIn_of_peek h.reaches htext (h.leadsTo.opens hopens)
  obtain ⟨-, -, hneStart⟩ := h.standsIn htext hvalue
  have hchars := hstands.line_eq (.inr hne)
  have hfuel : (s.first.rest.takeWhile Cursor.noBreak).length ≤
      (before ++ s.first.rest.takeWhile Cursor.noBreak).length := by simp
  obtain ⟨passed, hstart, hlength⟩ := h.leadsTo.propertiesLength_eq hopens hstands hline hfuel
  have hunmarked := hstart.unmarked hneStart hmark
  have hcolumn := hstands.column_eq_length fun hmem => hunmarked (List.mem_append_left _ hmem)
  refine ⟨_, hstart, ?_⟩
  rw [hchars, Option.getD_some, Document.valueColumn, hcolumn, List.drop_left, hlength,
    List.length_append]

end Spelling

end FormulaLint.Yaml
