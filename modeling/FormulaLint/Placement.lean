import FormulaLint.Diagnostic

/-!
# Places in a document

A formula sits somewhere in its document.  Its first line starts at a given line and column; every
later line is shifted by the indentation that the document's layout took away.  The line index of
a text turns offsets into places.

Main results:

- Theorem {lit}`mem_lineStartsFrom`: a line starts right behind each line feed.
-/

namespace FormulaLint

/-- Where the text of a formula sits in its document. -/
structure Placement where
  line : Int := 1
  column : Int := 1
  indent : Int := 0
deriving DecidableEq, Repr

/-- A line and a column, counted from one. -/
structure Place where
  line : Int
  column : Int
deriving DecidableEq, Repr

/-- Offsets behind the line feeds of a text whose first character has the given offset. -/
def lineStartsFrom : Nat → List Char → List Nat
  | _, [] => []
  | offset, c :: rest =>
      if c = '\n' then (offset + 1) :: lineStartsFrom (offset + 1) rest
      else lineStartsFrom (offset + 1) rest

/-- Offsets at which the lines of a text start. -/
def lineStarts (text : List Char) : List Nat :=
  0 :: lineStartsFrom 0 text

/-- A line starts right behind each line feed. -/
theorem mem_lineStartsFrom {text : List Char} {offset n : Nat} :
    n ∈ lineStartsFrom offset text ↔ ∃ i, text[i]? = some '\n' ∧ n = offset + i + 1 := by
  induction text generalizing offset with
  | nil => simp [lineStartsFrom]
  | cons c rest ih =>
      have tail : (∃ i, rest[i]? = some '\n' ∧ n = offset + 1 + i + 1) ↔
          ∃ i, (c :: rest)[i + 1]? = some '\n' ∧ n = offset + (i + 1) + 1 := by
        simp only [List.getElem?_cons_succ]
        constructor <;> rintro ⟨i, h, rfl⟩ <;> exact ⟨i, h, by omega⟩
      have split : (∃ i, (c :: rest)[i]? = some '\n' ∧ n = offset + i + 1) ↔
          (c = '\n' ∧ n = offset + 1) ∨
            ∃ i, (c :: rest)[i + 1]? = some '\n' ∧ n = offset + (i + 1) + 1 := by
        constructor
        · rintro ⟨i, h, rfl⟩
          cases i with
          | zero => left; simpa using h
          | succ i => right; exact ⟨i, h, rfl⟩
        · rintro (⟨rfl, rfl⟩ | ⟨i, h, rfl⟩)
          · exact ⟨0, by simp, by omega⟩
          · exact ⟨i + 1, h, rfl⟩
      rw [split, ← tail, ← ih]
      by_cases hc : c = '\n' <;> simp [lineStartsFrom, hc]

/-- The line starts of a text together with its placement. -/
structure LineIndex where
  placement : Placement
  starts : List Nat
deriving DecidableEq, Repr

namespace LineIndex

/-- The line index of a text. -/
def ofText (text : List Char) (placement : Placement) : LineIndex :=
  ⟨placement, lineStarts text⟩

/-- The place of an offset.  An offset in front of the text belongs to the line above the first
one and is counted from the start of the last line. -/
def place (index : LineIndex) (offset : Int) : Place :=
  let reached := index.starts.filter fun (start : Nat) => (start : Int) ≤ offset
  match reached.getLast? with
  | none =>
      ⟨index.placement.line - 1,
        index.placement.indent + 1 + (offset - (index.starts.getLastD 0 : Nat))⟩
  | some start =>
      if reached.length = 1 then
        ⟨index.placement.line, index.placement.column + (offset - start)⟩
      else
        ⟨index.placement.line + (reached.length - 1 : Nat),
          index.placement.indent + 1 + (offset - start)⟩

/-- The span between two offsets. -/
def span (index : LineIndex) (start stop : Int) : Span :=
  let place := index.place start
  ⟨start, stop, place.line, place.column⟩

end LineIndex

end FormulaLint
