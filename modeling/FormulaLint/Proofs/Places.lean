import FormulaLint.Placement
import Mathlib.Data.List.Basic
import Mathlib.Tactic.Ring

/-!
# Texts and the places of their characters

The line index of a text gives each offset its place step by step: behind a character the column
grows by one, and behind a line feed the next line starts at the indentation.  A text whose
characters follow each other in the lines of a document, with its line feeds leading from each line
to the next, therefore has every character at its place.

Main results:

- Theorems {lit}`LineIndex.place_zero`, {lit}`LineIndex.place_cons` and
  {lit}`LineIndex.place_newline`: the places of the offsets of a text.
- Theorem {lit}`Laid.char_place`: the characters of a text that stands in lines are at their places.
- Theorem {lit}`laid_append`: texts behind each other.
- Theorem {lit}`laid_intercalate`: successive lines.
-/

namespace FormulaLint

/-! ## Places of offsets -/

namespace LineIndex

/-- The lines of a text start later behind a longer beginning. -/
theorem lineStartsFrom_succ (text : List Char) (offset : Nat) :
    lineStartsFrom (offset + 1) text = (lineStartsFrom offset text).map (· + 1) := by
  induction text generalizing offset with
  | nil => rfl
  | cons c rest ih => by_cases hc : c = '\n' <;> simp [lineStartsFrom, hc, ih (offset + 1)]

/-- The starts of the lines behind the first one that an offset has reached. -/
def reachedLines (text : List Char) (offset : Nat) : List Nat :=
  (lineStartsFrom 0 text).filter (· ≤ offset)

theorem reachedLines_cons (c : Char) (text : List Char) (offset : Nat) :
    reachedLines (c :: text) (offset + 1) =
      if c = '\n' then (0 :: reachedLines text offset).map (· + 1)
      else (reachedLines text offset).map (· + 1) := by
  have hfilter : (lineStartsFrom 1 text).filter (· ≤ offset + 1) =
      (reachedLines text offset).map (· + 1) := by
    rw [lineStartsFrom_succ text 0, List.filter_map, reachedLines]
    congr 1
    refine List.filter_congr fun n _ => ?_
    simp
  by_cases hc : c = '\n' <;> simp [reachedLines, lineStartsFrom, hc] at hfilter ⊢ <;>
    exact hfilter

/-- The place of an offset, by the lines it has reached. -/
theorem place_eq (text : List Char) (placement : Placement) (offset : Nat) :
    (ofText text placement).place offset =
      match (reachedLines text offset).getLast? with
      | none => ⟨placement.line, placement.column + offset⟩
      | some start =>
          ⟨placement.line + (reachedLines text offset).length,
            placement.indent + 1 + (offset - start : Int)⟩ := by
  have hreached : (lineStarts text).filter (fun start : Nat => (start : Int) ≤ offset) =
      0 :: reachedLines text offset := by
    simp [lineStarts, reachedLines]
  simp only [place, ofText, hreached]
  cases h : reachedLines text offset with
  | nil => simp
  | cons start more => simp [List.getLast?_cons]

/-- A text starts at its placement. -/
theorem place_zero (text : List Char) (placement : Placement) :
    (ofText text placement).place (0 : Nat) = ⟨placement.line, placement.column⟩ := by
  have hreached : reachedLines text 0 = [] := by
    rw [reachedLines, List.filter_eq_nil_iff]
    intro n hn
    obtain ⟨i, -, rfl⟩ := mem_lineStartsFrom.mp hn
    simp
  rw [place_eq, hreached]
  simp

/-- Behind a line feed the next line starts, at the indentation. -/
theorem place_newline (text : List Char) (placement : Placement) (offset : Nat) :
    (ofText ('\n' :: text) placement).place (offset + 1 : Nat) =
      (ofText text ⟨placement.line + 1, placement.indent + 1, placement.indent⟩).place offset := by
  rw [place_eq, place_eq, reachedLines_cons, if_pos rfl]
  cases h : (reachedLines text offset).getLast? with
  | none => simp [List.getLast?_eq_none_iff.mp h]
  | some start => simp [List.getLast?_cons, List.getLast?_map, h]; ring

/-- Behind any other character the line goes on. -/
theorem place_cons {c : Char} (hc : c ≠ '\n') (text : List Char) (placement : Placement)
    (offset : Nat) :
    (ofText (c :: text) placement).place (offset + 1 : Nat) =
      (ofText text ⟨placement.line, placement.column + 1, placement.indent⟩).place offset := by
  rw [place_eq, place_eq, reachedLines_cons, if_neg hc, List.getLast?_map]
  cases h : (reachedLines text offset).getLast? with
  | none => simp; ring
  | some start => simp

end LineIndex

/-! ## Texts that stand in lines -/

/-- The character at a place. -/
def Place.char? (lines : List (List Char)) (p : Place) : Option Char :=
  if 0 < p.line ∧ 0 < p.column then
    lines[(p.line - 1).toNat]?.bind fun chars => chars[(p.column - 1).toNat]?
  else none

/-- Places count lines and columns from one. -/
theorem Place.char?_succ (lines : List (List Char)) (line column : Nat) :
    Place.char? lines ⟨(line : Int) + 1, (column : Int) + 1⟩ =
      lines[line]?.bind fun chars => chars[column]? := by
  have hpos : 0 < (line : Int) + 1 ∧ 0 < (column : Int) + 1 := by omega
  rw [Place.char?, if_pos hpos]
  simp

/-- A text stands in lines from a place on: its characters follow each other in the line, and a line
feed leads to the given column of the next line.  Lines and columns are counted from zero. -/
def Laid (lines : List (List Char)) (indent : Nat) : Nat → Nat → List Char → Prop
  | _, _, [] => True
  | line, column, c :: rest =>
      if c = '\n' then Laid lines indent (line + 1) indent rest
      else lines[line]?.bind (fun chars => chars[column]?) = some c ∧
        Laid lines indent line (column + 1) rest

variable {lines : List (List Char)} {indent line column : Nat}

/-- Every character of a text that stands in lines is found at its place, line feeds apart. -/
theorem Laid.char_place {text : List Char} (h : Laid lines indent line column text) {i : Nat} {c : Char}
    (hi : text[i]? = some c) (hc : c ≠ '\n') :
    ((LineIndex.ofText text ⟨line + 1, column + 1, indent⟩).place i).char? lines = some c := by
  induction text generalizing line column i with
  | nil => simp at hi
  | cons d rest ih =>
      cases i with
      | zero =>
          obtain rfl : d = c := by simpa using hi
          rw [LineIndex.place_zero]
          rw [Laid, if_neg hc] at h
          rw [Place.char?_succ]
          exact h.1
      | succ i =>
          rw [List.getElem?_cons_succ] at hi
          by_cases hd : d = '\n'
          · subst hd
            rw [Laid, if_pos rfl] at h
            rw [LineIndex.place_newline]
            exact_mod_cast ih h hi
          · rw [Laid, if_neg hd] at h
            rw [LineIndex.place_cons hd]
            exact_mod_cast ih h.2 hi

theorem laid_nil : Laid lines indent line column [] :=
  trivial

/-- A line feed leads to the next line. -/
theorem laid_newline {rest : List Char} :
    Laid lines indent line column ('\n' :: rest) ↔ Laid lines indent (line + 1) indent rest := by
  simp [Laid]

/-- The characters of one line stand in it when the line goes on with them. -/
theorem laid_of_prefix {chars text : List Char} (hline : lines[line]? = some chars)
    (h : text <+: chars.drop column) (htext : ∀ c ∈ text, c ≠ '\n') :
    Laid lines indent line column text := by
  induction text generalizing column with
  | nil => exact laid_nil
  | cons c rest ih =>
      obtain ⟨after, hafter⟩ := h
      have hc : chars[column]? = some c := by
        rw [← Nat.add_zero column, ← List.getElem?_drop, ← hafter]
        rfl
      have hrest : rest <+: chars.drop (column + 1) := by
        refine ⟨after, ?_⟩
        rw [← List.drop_drop, ← hafter]
        rfl
      rw [Laid, if_neg (htext c List.mem_cons_self)]
      exact ⟨by simp [hline, hc], ih hrest fun d hd => htext d (List.mem_cons_of_mem _ hd)⟩

/-- The place behind a text that starts at a place. -/
def placeBehind (indent line column : Nat) : List Char → Nat × Nat
  | [] => (line, column)
  | c :: rest =>
      if c = '\n' then placeBehind indent (line + 1) indent rest
      else placeBehind indent line (column + 1) rest

/-- The place behind two texts. -/
theorem placeBehind_append (first rest : List Char) :
    placeBehind indent line column (first ++ rest) =
      placeBehind indent (placeBehind indent line column first).1
        (placeBehind indent line column first).2 rest := by
  induction first generalizing line column with
  | nil => rfl
  | cons c first ih => by_cases hc : c = '\n' <;> simp [placeBehind, hc, ih]

/-- The place behind some characters of one line. -/
theorem placeBehind_of_line {text : List Char} (h : ∀ c ∈ text, c ≠ '\n') :
    placeBehind indent line column text = (line, column + text.length) := by
  induction text generalizing column with
  | nil => rfl
  | cons c rest ih =>
      rw [placeBehind, if_neg (h c List.mem_cons_self), ih fun d hd => h d (List.mem_cons_of_mem _ hd),
        List.length_cons, Nat.add_assoc, Nat.add_comm 1]

/-- The place behind some line feeds. -/
theorem placeBehind_of_newlines {text : List Char} (h : ∀ c ∈ text, c = '\n') :
    placeBehind indent line indent text = (line + text.length, indent) := by
  induction text generalizing line with
  | nil => rfl
  | cons c rest ih =>
      rw [placeBehind, if_pos (h c List.mem_cons_self), ih fun d hd => h d (List.mem_cons_of_mem _ hd),
        List.length_cons, Nat.add_assoc, Nat.add_comm 1]

/-- Texts behind each other. -/
theorem laid_append (first rest : List Char) :
    Laid lines indent line column (first ++ rest) ↔
      Laid lines indent line column first ∧
        Laid lines indent (placeBehind indent line column first).1
          (placeBehind indent line column first).2 rest := by
  induction first generalizing line column with
  | nil => simp [Laid, placeBehind]
  | cons c first ih => by_cases hc : c = '\n' <;> simp [Laid, placeBehind, hc, ih, and_assoc]

/-- Line feeds stand anywhere. -/
theorem laid_of_newlines {text : List Char} (h : ∀ c ∈ text, c = '\n') :
    Laid lines indent line column text := by
  induction text generalizing line column with
  | nil => exact laid_nil
  | cons c rest ih =>
      obtain rfl := h c List.mem_cons_self
      exact laid_newline.mpr (ih fun d hd => h d (List.mem_cons_of_mem _ hd))

/-- Successive lines without their indentation stand in those lines. -/
theorem laid_intercalate {block : List (List Char)}
    (hblock : block <+: (lines.drop line).map (·.drop indent))
    (hnewline : ∀ chars ∈ lines, ∀ c ∈ chars, c ≠ '\n') :
    Laid lines indent line indent (List.intercalate ['\n'] block) := by
  induction block generalizing line with
  | nil => exact laid_nil
  | cons first block ih =>
      obtain ⟨after, hafter⟩ := hblock
      cases hlines : lines.drop line with
      | nil => simp [hlines] at hafter
      | cons chars more =>
          rw [hlines, List.map_cons, List.cons_append, List.cons.injEq] at hafter
          obtain ⟨rfl, hafter⟩ := hafter
          have hline : lines[line]? = some chars := by
            rw [← Nat.add_zero line, ← List.getElem?_drop, hlines]
            rfl
          have hmore : lines.drop (line + 1) = more := by
            rw [← List.drop_drop, hlines]
            rfl
          have hchars : ∀ c ∈ chars.drop indent, c ≠ '\n' := fun c hc =>
            hnewline chars (List.mem_of_getElem? hline) c (List.mem_of_mem_drop hc)
          have hfirst : Laid lines indent line indent (chars.drop indent) :=
            laid_of_prefix hline (List.prefix_rfl) hchars
          have hrest : Laid lines indent (line + 1) indent (List.intercalate ['\n'] block) :=
            ih ⟨after, by rw [hmore]; exact hafter⟩
          cases block with
          | nil => simpa using hfirst
          | cons second block =>
              rw [List.intercalate_cons_cons, List.append_assoc, laid_append, placeBehind_of_line hchars]
              exact ⟨hfirst, laid_newline.mpr hrest⟩

end FormulaLint
