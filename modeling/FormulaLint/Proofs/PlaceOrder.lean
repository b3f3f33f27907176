import FormulaLint.Proofs.Places
import Mathlib.Data.List.GetD
import Mathlib.Data.List.Sort

/-!
# The order of places

The places of a text stand in the order of its offsets: a character that is no line feed leads to
the next column, and a line feed leads to the next line.  So a place tells how many line feeds stand
in front of an offset and how far away the last one is, and what is sorted by offsets is sorted by
places.  The line of an offset can be searched for by halving the table of line starts, because the
table is sorted.

Main results:

- Theorem {lit}`LineIndex.place_succ`: the place behind one more character.
- Theorems {lit}`LineIndex.line_place` and {lit}`LineIndex.place_of_newline`: the lines and columns
  of offsets.
- Theorem {lit}`LineIndex.before_place_of_lt`: an earlier offset has an earlier place.
- Theorem {lit}`LineIndex.searchPlace_eq`: a search in the table of line starts finds the place.
-/

namespace FormulaLint

/-! ## Lines and columns -/

/-- Whether a place stands in front of another one: on an earlier line, or on the same line in an
earlier column. -/
def Place.Before (a b : Place) : Prop :=
  a.line < b.line ∨ a.line = b.line ∧ a.column < b.column

/-- A place is its line and its column. -/
theorem Place.eq_mk {a : Place} {line column : Int} (hline : a.line = line)
    (hcolumn : a.column = column) : a = ⟨line, column⟩ := by
  rw [← hline, ← hcolumn]

theorem Place.Before.trans {a b c : Place} (hab : a.Before b) (hbc : b.Before c) : a.Before c := by
  unfold Before at *
  omega

namespace LineIndex

variable {text : List Char} {placement : Placement} {i j : Nat}

/-- The place behind one more character: a line feed leads to the start of the next line, any other
character to the next column. -/
theorem place_succ {c : Char} (hi : text[i]? = some c) (placement : Placement) :
    (ofText text placement).place (i + 1 : Nat) =
      if c = '\n' then ⟨((ofText text placement).place i).line + 1, placement.indent + 1⟩
      else
        ⟨((ofText text placement).place i).line, ((ofText text placement).place i).column + 1⟩ := by
  induction text generalizing i placement with
  | nil => simp at hi
  | cons d rest ih =>
      cases i with
      | zero =>
          obtain rfl : d = c := by simpa using hi
          rw [place_zero]
          by_cases hd : d = '\n'
          · subst hd
            rw [place_newline, place_zero, if_pos rfl]
          · rw [place_cons hd, place_zero, if_neg hd]
      | succ i =>
          rw [List.getElem?_cons_succ] at hi
          by_cases hd : d = '\n'
          · subst hd
            rw [place_newline, place_newline]
            exact ih hi _
          · rw [place_cons hd, place_cons hd]
            exact ih hi _

/-- The line of an offset: the first one, and one more for each line feed in front of it. -/
theorem line_place (hi : i ≤ text.length) (placement : Placement) :
    ((ofText text placement).place i).line = placement.line + (text.take i).count '\n' := by
  induction i with
  | zero =>
      rw [place_zero]
      simp
  | succ i ih =>
      have hc : text[i]? = some text[i] := List.getElem?_eq_getElem (by omega)
      rw [place_succ hc, List.take_add_one, hc, List.count_append]
      by_cases hnewline : text[i] = '\n'
      · rw [if_pos hnewline, ih (by omega), hnewline, Option.toList_some, List.count_singleton_self]
        push_cast
        ring
      · have hnone : [text[i]].count '\n' = 0 := by simp [List.count_eq_zero, Ne.symm hnewline]
        rw [if_neg hnewline, ih (by omega), Option.toList_some, hnone, Nat.add_zero]

/-- The column grows by one behind each character of a line. -/
theorem column_place {k : Nat} (hki : k ≤ i) (hi : i ≤ text.length)
    (hline : ∀ m, k ≤ m → m < i → text[m]? ≠ some '\n') (placement : Placement) :
    ((ofText text placement).place i).column =
      ((ofText text placement).place k).column + (i - k : Int) := by
  induction i, hki using Nat.le_induction with
  | base => omega
  | succ i hki ih =>
      have hc : text[i]? = some text[i] := List.getElem?_eq_getElem (by omega)
      have hnewline : text[i] ≠ '\n' := by
        intro hnewline
        exact hline i hki (by omega) (hnewline ▸ hc)
      rw [place_succ hc, if_neg hnewline, ih (by omega) fun m hkm hmi => hline m hkm (by omega)]
      push_cast
      ring

/-- The place of an offset of the first line. -/
theorem place_of_first_line (hi : i ≤ text.length) (hline : ∀ m < i, text[m]? ≠ some '\n') :
    (ofText text placement).place i = ⟨placement.line, placement.column + i⟩ := by
  have hcolumn := column_place (Nat.zero_le i) hi (fun m _ => hline m) placement
  have hnone : (text.take i).count '\n' = 0 := by
    rw [List.count_eq_zero]
    intro hmem
    rcases List.mem_take_iff_getElem.mp hmem with ⟨m, hm, hnewline⟩
    exact hline m (by omega) (by rw [List.getElem?_eq_getElem (by omega), hnewline])
  have hline := line_place hi placement
  rw [hnone] at hline
  rw [place_zero] at hcolumn
  exact Place.eq_mk (by simpa using hline) (by simpa using hcolumn)

/-- The place of an offset whose line starts behind a line feed. -/
theorem place_of_newline {k : Nat} (hki : k < i) (hi : i ≤ text.length)
    (hk : text[k]? = some '\n') (hline : ∀ m, k < m → m < i → text[m]? ≠ some '\n') :
    (ofText text placement).place i =
      ⟨placement.line + (text.take i).count '\n', placement.indent + 1 + (i - (k + 1) : Int)⟩ := by
  have hcolumn := column_place hki hi hline placement
  have hstart := place_succ hk placement
  rw [if_pos rfl] at hstart
  rw [hstart] at hcolumn
  exact Place.eq_mk (line_place hi placement) (by simpa using hcolumn)

/-! ## The order of places -/

/-- A character stands in front of the next one. -/
theorem before_place_succ (hi : i < text.length) (placement : Placement) :
    ((ofText text placement).place i).Before ((ofText text placement).place (i + 1 : Nat)) := by
  rw [place_succ (List.getElem?_eq_getElem hi)]
  by_cases hnewline : text[i] = '\n'
  · rw [if_pos hnewline]
    exact Or.inl (Int.lt_succ _)
  · rw [if_neg hnewline]
    exact Or.inr ⟨rfl, Int.lt_succ _⟩

/-- An earlier offset has an earlier place. -/
theorem before_place_of_lt (hij : i < j) (hj : j ≤ text.length) (placement : Placement) :
    ((ofText text placement).place i).Before ((ofText text placement).place j) := by
  induction j, hij using Nat.le_induction with
  | base => exact before_place_succ (by omega) placement
  | succ j hij ih => exact (ih (by omega)).trans (before_place_succ (by omega) placement)

/-! ## Searching the table of line starts -/

/-- The lines of a text start in order. -/
theorem pairwise_lineStarts_from (text : List Char) (offset : Nat) :
    (offset :: lineStartsFrom offset text).Pairwise (· < ·) := by
  induction text generalizing offset with
  | nil => simp [lineStartsFrom]
  | cons c rest ih =>
      have hrest := List.pairwise_cons.mp (ih (offset + 1))
      rw [lineStartsFrom]
      split
      · refine List.pairwise_cons.mpr ⟨fun n hn => ?_, ih (offset + 1)⟩
        rcases List.mem_cons.mp hn with rfl | hn
        · omega
        · exact (Nat.lt_succ_self offset).trans (hrest.1 n hn)
      · refine List.pairwise_cons.mpr ⟨fun n hn => ?_, hrest.2⟩
        exact (Nat.lt_succ_self offset).trans (hrest.1 n hn)

/-- The table of line starts is sorted. -/
theorem pairwise_lineStarts (text : List Char) : (lineStarts text).Pairwise (· < ·) :=
  pairwise_lineStarts_from text 0

/-- The number of entries up to an offset in a part of a sorted table, found by halving the part. -/
def bisect (starts : List Nat) (offset low high : Nat) : Nat :=
  if low < high then
    let middle := (low + high) / 2
    if offset < starts.getD middle 0 then bisect starts offset low middle
    else bisect starts offset (middle + 1) high
  else low
termination_by high - low

/-- A part of a table outside of which everything is told apart by an offset: what stands in front
of the part is reached, and what stands behind it is not. -/
structure Brackets (starts : List Nat) (offset low high : Nat) : Prop where
  low_le : low ≤ high
  high_le : high ≤ starts.length
  reached : ∀ n ∈ starts.take low, n ≤ offset
  beyond : ∀ n ∈ starts.drop high, offset < n

section

variable {starts : List Nat} {offset low high m n : Nat}

/-- In a sorted table no entry up to a position is larger than the one there. -/
theorem le_of_mem_take (hsorted : starts.Pairwise (· < ·)) (hm : m < starts.length)
    (hn : n ∈ starts.take (m + 1)) : n ≤ starts.getD m 0 := by
  rcases List.mem_take_iff_getElem.mp hn with ⟨k, hk, rfl⟩
  rw [List.getD_eq_getElem _ _ hm]
  exact hsorted.sortedLT.sortedLE.getElem_le_getElem_of_le (by omega)

/-- In a sorted table no entry from a position on is smaller than the one there. -/
theorem le_of_mem_drop (hsorted : starts.Pairwise (· < ·)) (hm : m < starts.length)
    (hn : n ∈ starts.drop m) : starts.getD m 0 ≤ n := by
  rcases List.mem_drop_iff_getElem.mp hn with ⟨k, hk, rfl⟩
  rw [List.getD_eq_getElem _ _ hm]
  exact hsorted.sortedLT.sortedLE.getElem_le_getElem_of_le (by omega)

/-- Halving keeps the bracket and closes it. -/
theorem Brackets.bisect (hsorted : starts.Pairwise (· < ·)) (h : Brackets starts offset low high) :
    Brackets starts offset (bisect starts offset low high) (bisect starts offset low high) := by
  fun_induction LineIndex.bisect starts offset low high with
  | case1 low high hlt middle hfront ih =>
      have hmiddle : middle < starts.length := by
        have := h.high_le
        omega
      refine ih ⟨by omega, by omega, h.reached, fun n hn => ?_⟩
      exact hfront.trans_le (le_of_mem_drop hsorted hmiddle hn)
  | case2 low high hlt middle hbehind ih =>
      have hmiddle : middle < starts.length := by
        have := h.high_le
        omega
      refine ih ⟨by omega, h.high_le, fun n hn => ?_, h.beyond⟩
      exact (le_of_mem_take hsorted hmiddle hn).trans (Nat.le_of_not_lt hbehind)
  | case3 low high hnot =>
      obtain rfl : high = low := Nat.le_antisymm (Nat.le_of_not_lt hnot) h.low_le
      exact h

/-- A whole table is a bracket. -/
theorem brackets_all (starts : List Nat) (offset : Nat) :
    Brackets starts offset 0 starts.length :=
  ⟨by omega, by omega, by simp, by simp⟩

/-- In front of a closed bracket stand the entries that are reached. -/
theorem Brackets.filter_eq (h : Brackets starts offset low low) :
    starts.filter (fun start : Nat => (start : Int) ≤ offset) = starts.take low := by
  conv_lhs => rw [← List.take_append_drop low starts]
  rw [List.filter_append, List.filter_eq_self.mpr, List.filter_eq_nil_iff.mpr, List.append_nil]
  · intro n hn
    simpa using h.beyond n hn
  · intro n hn
    simpa using h.reached n hn

end

/-- The place of an offset whose line is searched for in the table of line starts. -/
def searchPlace (index : LineIndex) (offset : Nat) : Place :=
  let line := bisect index.starts offset 0 index.starts.length - 1
  let column : Int := offset - (index.starts.getD line 0 : Nat)
  if line = 0 then ⟨index.placement.line, index.placement.column + column⟩
  else ⟨index.placement.line + line, index.placement.indent + 1 + column⟩

/-- The search in the table of line starts finds the place of an offset. -/
theorem searchPlace_eq (text : List Char) (placement : Placement) (offset : Nat) :
    (ofText text placement).searchPlace offset = (ofText text placement).place offset := by
  have hbracket := (brackets_all (lineStarts text) offset).bisect (pairwise_lineStarts text)
  rw [searchPlace, place, ofText]
  dsimp only
  generalize bisect (lineStarts text) offset 0 (lineStarts text).length = found at hbracket ⊢
  -- the first line is always reached
  have hfound : found ≠ 0 := by
    rintro rfl
    exact absurd (hbracket.beyond 0 (by simp [lineStarts])) (by omega)
  have hle := hbracket.high_le
  have hlength : ((lineStarts text).take found).length = found := by
    rw [List.length_take]
    omega
  have hlast : ((lineStarts text).take found).getLast? =
      some ((lineStarts text).getD (found - 1) 0) := by
    rw [List.getLast?_take, if_neg hfound, List.getElem?_eq_getElem (by omega),
      List.getD_eq_getElem _ _ (by omega)]
    rfl
  rw [hbracket.filter_eq, hlast, hlength]
  by_cases hone : found = 1
  · subst hone
    rfl
  · dsimp only
    rw [if_neg (by omega), if_neg hone]

end LineIndex

end FormulaLint
