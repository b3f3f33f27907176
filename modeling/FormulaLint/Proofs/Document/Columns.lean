import FormulaLint.Document.Locate
import FormulaLint.Proofs.Places
import Mathlib.Data.List.DropRight

/-!
# Where scalars stand in their lines

A scalar that follows an anchor or a tag on its line starts behind them.  A block scalar starts with
the first line behind its header that is not blank.

Main results:

- Theorem {lit}`laid_blockText`: the lines of a folded block stand in the document.
- Theorem {lit}`blockText_cons`: the lines of a folded block.
- Theorem {lit}`propertiesLength_property`: an anchor or a tag and the spaces behind it are skipped.
- Theorem {lit}`firstLine?_of_getElem?`: the line behind a header is the first one.
-/

namespace FormulaLint

namespace Document

variable {lines : List (List Char)}

/-- The lines of a block stand in the document. -/
theorem laid_blockText (first indent : Nat) (hnewline : ∀ chars ∈ lines, ∀ c ∈ chars, c ≠ '\n') :
    Laid lines indent first indent (blockText lines first indent) := by
  refine laid_intercalate ?_ hnewline
  have hkept : ∀ block : List (List Char),
      (block.reverse.dropWhile Text.allBlank).reverse <+: block := fun block => by
    rw [← List.reverse_suffix, List.reverse_reverse]
    exact List.dropWhile_suffix _
  exact (hkept _).trans ((List.takeWhile_prefix _).map _)

/-- The lines of a block start with the one of the equals sign; blank lines are taken off their end. -/
theorem blockText_cons {first indent : Nat} {rest : List Char}
    (hline : lines[first]? = some (List.replicate indent ' ' ++ '=' :: rest)) :
    blockText lines first indent = List.intercalate ['\n'] (('=' :: rest) ::
      (((lines.drop (first + 1)).takeWhile fun line =>
        Text.allBlank line || indent ≤ Text.indentation line).map (·.drop indent)).rdropWhile
          Text.allBlank) := by
  obtain ⟨hlt, hchars⟩ := List.getElem?_eq_some_iff.mp hline
  have hindent : Text.indentation (List.replicate indent ' ' ++ '=' :: rest) = indent := by
    rw [Text.indentation, List.takeWhile_append_of_pos (by simp), List.takeWhile_cons_of_neg (by decide)]
    simp
  have hblank : Text.allBlank ('=' :: rest) = false := by
    rw [Text.allBlank, List.all_cons, show Text.isBlank '=' = false by decide, Bool.false_and]
  have hkeep : ∀ block : List (List Char), (('=' :: rest) :: block).rdropWhile Text.allBlank =
      ('=' :: rest) :: block.rdropWhile Text.allBlank := by
    intro block
    rw [List.rdropWhile, List.reverse_cons, List.dropWhile_append]
    split
    · rename_i hall
      simp [List.rdropWhile, List.isEmpty_iff.mp hall, hblank]
    · simp [List.rdropWhile]
  rw [blockText, List.drop_eq_getElem_cons hlt, hchars, List.takeWhile_cons_of_pos (by simp [hindent]),
    List.map_cons, List.drop_left' (by simp)]
  exact congrArg _ (hkeep _)

/-- A block starts with the equals sign of its first line. -/
theorem head?_blockText {first indent : Nat} {rest : List Char}
    (hline : lines[first]? = some (List.replicate indent ' ' ++ '=' :: rest)) :
    (blockText lines first indent).head? = some '=' := by
  rw [blockText_cons hline]
  generalize List.rdropWhile _ _ = more
  cases more with
  | nil => rfl
  | cons second more => rw [List.intercalate_cons_cons]; rfl

/-- A place where no anchor and no tag starts. -/
theorem propertiesLength_eq_zero {cs : List Char} (h : ∀ c ∈ cs.head?, c ≠ '&' ∧ c ≠ '!')
    (fuel : Nat) : propertiesLength fuel cs = 0 := by
  cases fuel with
  | zero => rfl
  | succ fuel =>
      unfold propertiesLength
      split
      · exact absurd rfl (h '&' rfl).1
      · exact absurd rfl (h '!' rfl).2
      · rfl

/-- An anchor or a tag and the spaces behind it. -/
theorem propertiesLength_property {mark : Char} {word spaces after : List Char}
    (hmark : mark = '&' ∨ mark = '!') (hword : ∀ c ∈ mark :: word, Text.isBlank c = false)
    (hspaces : ∀ c ∈ spaces, c = ' ') (hne : spaces ≠ []) (hafter : ∀ c ∈ after.head?, c ≠ ' ')
    (fuel : Nat) :
    propertiesLength (fuel + 1) (mark :: word ++ spaces ++ after) =
      (mark :: word).length + spaces.length + propertiesLength fuel after := by
  have hblank : ∀ c ∈ (spaces ++ after).head?, ¬ (!Text.isBlank c) = true := by
    obtain ⟨c, more, rfl⟩ := List.exists_cons_of_ne_nil hne
    obtain rfl := hspaces c List.mem_cons_self
    simp only [List.cons_append, List.head?_cons, Option.mem_def, Option.some.injEq]
    rintro c rfl
    decide
  have htake : ((mark :: word) ++ (spaces ++ after)).takeWhile (fun c => !Text.isBlank c) =
      mark :: word := by
    rw [List.takeWhile_append_of_pos fun c hc => by simp [hword c hc]]
    cases hcs : spaces ++ after with
    | nil => simp
    | cons c more =>
        have hc := hblank c (by simp [hcs])
        simp only [Bool.not_eq_true] at hc
        rw [List.takeWhile_cons, hc, if_neg Bool.false_ne_true, List.append_nil]
  have hskip : (spaces ++ after).takeWhile (· == ' ') = spaces := by
    rw [List.takeWhile_append_of_pos fun c hc => by simp [hspaces c hc]]
    cases after with
    | nil => simp
    | cons c more =>
        rw [List.takeWhile_cons_of_neg (by simpa using hafter c rfl), List.append_nil]
  have hdrop : ((mark :: word) ++ (spaces ++ after)).drop (mark :: word).length = spaces ++ after :=
    List.drop_left
  have hrest : ((mark :: word) ++ (spaces ++ after)).drop ((mark :: word).length + spaces.length) =
      after := by
    rw [← List.drop_drop, hdrop, List.drop_left]
  rw [List.append_assoc]
  rcases hmark with rfl | rfl
  all_goals
    rw [List.cons_append] at htake hdrop hrest ⊢
    simp only [propertiesLength, htake, hdrop, hskip, hrest]

/-- The line behind the header, when it is not blank. -/
theorem firstLine?_of_getElem? {header : Nat} {chars : List Char}
    (hline : lines[header + 1]? = some chars) (hblank : Text.allBlank chars = false) :
    firstLine? lines header = some (chars, header + 1) := by
  obtain ⟨hlt, rfl⟩ := List.getElem?_eq_some_iff.mp hline
  rw [firstLine?, List.drop_eq_getElem_cons (by simpa using hlt), List.find?_cons_of_pos (by simpa using hblank)]
  simp

end Document

end FormulaLint
