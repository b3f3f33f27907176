import FormulaLint.Proofs.Document.Columns
import FormulaLint.Text.Split
import Mathlib.Data.List.DropRight

/-!
# Folded blocks keep their lines

A folded block gives its formula the lines of the document as they are written.  From the line of
the equals sign on these are the lines up to the first one that is indented less and not blank,
without the blank lines in front of that; each of them loses the indentation of the block.

Main results:

- Definition {lit}`BlockParts`: where a block ends, and which of its lines count.
- Theorem {lit}`exists_blockParts`: the lines of a block.
- Theorem {lit}`blockText_maps_back`: the text of a folded formula has the lines of its block, and
  every character of it is found at its place.
-/

namespace FormulaLint

/-- Cutting a text at the separators that join its pieces gives the pieces. -/
theorem Text.split_intercalate {separator : Char} {pieces : List (List Char)} (hne : pieces ≠ [])
    (h : ∀ piece ∈ pieces, separator ∉ piece) :
    Text.split separator (List.intercalate [separator] pieces) = pieces := by
  have hjoined : ∀ {piece rest : List Char}, separator ∉ piece →
      Text.split separator (piece ++ separator :: rest) = piece :: Text.split separator rest := by
    intro piece rest hpiece
    induction piece with
    | nil => simp [Text.split]
    | cons c piece ih =>
        rw [List.mem_cons, not_or] at hpiece
        simp [Text.split, Ne.symm hpiece.1, ih hpiece.2]
  have halone : ∀ {piece : List Char}, separator ∉ piece →
      Text.split separator piece = [piece] := by
    intro piece hpiece
    induction piece with
    | nil => rfl
    | cons c piece ih =>
        rw [List.mem_cons, not_or] at hpiece
        simp [Text.split, Ne.symm hpiece.1, ih hpiece.2]
  induction pieces with
  | nil => exact absurd rfl hne
  | cons first pieces ih =>
      cases pieces with
      | nil => simpa using halone (h first (by simp))
      | cons second pieces =>
          rw [List.intercalate_cons_cons, List.append_assoc, List.singleton_append,
            hjoined (h first (by simp)),
            ih (by simp) fun piece hpiece => h piece (List.mem_cons_of_mem _ hpiece)]

namespace Document

/-- How the lines behind the first line of a block fall apart: lines inside the block, the last of
which is not blank, blank lines at its end, and what stands below, from a line on that is not blank
and indented less. -/
structure BlockParts (indent : Nat) (behind inside blanks below : List (List Char)) : Prop where
  eq_append : behind = inside ++ blanks ++ below
  inside_block : ∀ line ∈ inside, Text.allBlank line = true ∨ indent ≤ Text.indentation line
  last_inside : ∀ line ∈ inside.getLast?, Text.allBlank line = false
  all_blank : ∀ line ∈ blanks, Text.allBlank line = true
  first_below : ∀ line ∈ below.head?, Text.allBlank line = false ∧ Text.indentation line < indent

/-- Taking the indentation of a block off one of its lines does not change whether it is blank. -/
theorem allBlank_drop {line : List Char} {indent : Nat}
    (h : Text.allBlank line = true ∨ indent ≤ Text.indentation line) :
    Text.allBlank (line.drop indent) = Text.allBlank line := by
  have hwhole : Text.allBlank line =
      (Text.allBlank (line.take indent) && Text.allBlank (line.drop indent)) := by
    rw [Text.allBlank, Text.allBlank, Text.allBlank, ← List.all_append, List.take_append_drop]
  rcases h with hblank | hindent
  · rw [hblank, eq_comm, Bool.and_eq_true] at hwhole
    rw [hwhole.2, hblank]
  · -- only spaces are taken off
    have htaken : line.take indent <+: line.takeWhile (· == ' ') := by
      refine List.prefix_of_prefix_length_le (List.take_prefix _ _) (List.takeWhile_prefix _) ?_
      rw [List.length_take]
      exact (Nat.min_le_left _ _).trans hindent
    have hspaces : Text.allBlank (line.take indent) = true := by
      refine List.all_eq_true.mpr fun c hc => ?_
      have hspace := List.mem_takeWhile_imp (htaken.subset hc)
      obtain rfl : c = ' ' := by simpa using hspace
      decide
    rw [hwhole, hspaces, Bool.true_and]

/-- The blank lines at the end of a block are the same with and without the indentation. -/
theorem rdropWhile_allBlank_map {indent : Nat} {block : List (List Char)}
    (h : ∀ line ∈ block, Text.allBlank line = true ∨ indent ≤ Text.indentation line) :
    (block.map (·.drop indent)).rdropWhile Text.allBlank =
      (block.rdropWhile Text.allBlank).map (·.drop indent) := by
  induction block using List.reverseRecOn with
  | nil => rfl
  | append_singleton block line ih =>
      have hline := allBlank_drop (h line (by simp))
      rw [List.map_append, List.map_singleton, List.rdropWhile_concat, List.rdropWhile_concat, hline]
      split
      · exact ih fun line hline => h line (by simp [hline])
      · simp

variable {lines : List (List Char)} {first indent : Nat} {rest : List Char}

/-- The lines behind the first line of a block fall apart, and the text of the block is its first
line, from the equals sign on, with the lines inside. -/
theorem exists_blockParts
    (hline : lines[first]? = some (List.replicate indent ' ' ++ '=' :: rest)) :
    ∃ inside blanks below, BlockParts indent (lines.drop (first + 1)) inside blanks below ∧
      blockText lines first indent =
        List.intercalate ['\n'] (('=' :: rest) :: inside.map (·.drop indent)) := by
  rw [blockText_cons hline]
  generalize lines.drop (first + 1) = behind
  generalize hp : (fun line => Text.allBlank line || decide (indent ≤ Text.indentation line)) = p
  have hblock : ∀ line ∈ behind.takeWhile p,
      Text.allBlank line = true ∨ indent ≤ Text.indentation line := by
    intro line hline
    have hpline := List.mem_takeWhile_imp hline
    rw [← hp] at hpline
    simpa using hpline
  refine ⟨(behind.takeWhile p).rdropWhile Text.allBlank,
    (behind.takeWhile p).rtakeWhile Text.allBlank, behind.dropWhile p, ⟨?_, ?_, ?_, ?_, ?_⟩,
    by rw [rdropWhile_allBlank_map hblock]⟩
  · rw [List.rdropWhile_append_rtakeWhile, List.takeWhile_append_dropWhile]
  · intro line hline
    exact hblock line ((List.rdropWhile_prefix _ _).subset hline)
  · intro line hline
    obtain ⟨hne, rfl⟩ := List.mem_getLast?_eq_getLast hline
    simpa using List.rdropWhile_last_not _ _ hne
  · exact fun line hline => List.mem_rtakeWhile_imp hline
  · intro line hline
    have hnot := List.head?_dropWhile_not p behind
    rw [Option.mem_def.mp hline, ← hp] at hnot
    simpa using hnot

/-- The text of a folded formula has the lines of its block, up to the first later line that is
indented less and not blank and without the blank lines in front of that, each without its
indentation; and every character of it is found at its place in the document. -/
theorem blockText_maps_back (hnewline : ∀ chars ∈ lines, '\n' ∉ chars)
    (hline : lines[first]? = some (List.replicate indent ' ' ++ '=' :: rest)) :
    (∀ (i : Nat) (c : Char), ((blockText lines first indent).drop 1)[i]? = some c → c ≠ '\n' →
      ((LineIndex.ofText ((blockText lines first indent).drop 1)
        ⟨(first : Int) + 1, (indent : Int) + 2, indent⟩).place i).char? lines = some c) ∧
    ∃ inside blanks below, BlockParts indent (lines.drop (first + 1)) inside blanks below ∧
      Text.split '\n' ((blockText lines first indent).drop 1) =
        rest :: inside.map (·.drop indent) := by
  obtain ⟨inside, blanks, below, hparts, htext⟩ := exists_blockParts hline
  have hdrop : (blockText lines first indent).drop 1 =
      List.intercalate ['\n'] (rest :: inside.map (·.drop indent)) := by
    rw [htext]
    cases inside with
    | nil => rfl
    | cons second more => rw [List.map_cons, List.intercalate_cons_cons, List.intercalate_cons_cons]; rfl
  refine ⟨fun i c hi hc => ?_, inside, blanks, below, hparts, ?_⟩
  · have hlaid := laid_blockText first indent fun chars hchars c hc hnl =>
      hnewline chars hchars (hnl ▸ hc)
    obtain ⟨text, htext⟩ := List.head?_eq_some_iff.mp (head?_blockText hline)
    rw [htext, List.drop_one, List.tail_cons] at hi ⊢
    rw [htext, Laid, if_neg (by decide)] at hlaid
    have hplace := hlaid.2.char_place hi hc
    rwa [Nat.cast_add, Nat.cast_one, add_assoc] at hplace
  · have hmem : ∀ line ∈ lines.drop (first + 1), '\n' ∉ line := fun line hline =>
      hnewline line (List.mem_of_mem_drop hline)
    rw [hdrop]
    refine Text.split_intercalate (by simp) fun piece hpiece => ?_
    rcases List.mem_cons.mp hpiece with rfl | hpiece
    · intro hc
      exact hnewline _ (List.mem_of_getElem? hline) (by simp [hc])
    · obtain ⟨line, hinside, rfl⟩ := List.mem_map.mp hpiece
      intro hc
      refine hmem line ?_ (List.mem_of_mem_drop hc)
      rw [hparts.eq_append]
      simp [hinside]

/-- A folded formula over three lines, with a blank line between them and one behind them. -/
def foldedLines : List (List Char) :=
  ["Total: >".toList, "    =Sum(a,".toList, "".toList, "      b)".toList, "  ".toList,
    "Title: b".toList]

/-- The last argument of the folded formula is found on the fourth line. -/
theorem foldedLines_maps_back : (∀ chars ∈ foldedLines, '\n' ∉ chars) ∧
    foldedLines[1]? = some (List.replicate 4 ' ' ++ '=' :: "Sum(a,".toList) ∧
    (blockText foldedLines 1 4).drop 1 = "Sum(a,\n\n  b)".toList ∧
    ((LineIndex.ofText "Sum(a,\n\n  b)".toList ⟨2, 6, 4⟩).place 10).char? foldedLines = some 'b' ∧
    ∃ inside blanks below, BlockParts 4 (foldedLines.drop 2) inside blanks below ∧
      Text.split '\n' "Sum(a,\n\n  b)".toList = "Sum(a,".toList :: inside.map (·.drop 4) := by
  have hnewline : ∀ chars ∈ foldedLines, '\n' ∉ chars := by decide
  have hline : foldedLines[1]? = some (List.replicate 4 ' ' ++ '=' :: "Sum(a,".toList) := rfl
  have htext : (blockText foldedLines 1 4).drop 1 = "Sum(a,\n\n  b)".toList := by decide
  have hmaps := blockText_maps_back hnewline hline
  rw [htext] at hmaps
  exact ⟨hnewline, hline, htext, hmaps.1 10 'b' rfl (by decide), hmaps.2⟩

end Document

end FormulaLint
