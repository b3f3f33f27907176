import FormulaLint.Placement
import FormulaLint.Text.Lines
import FormulaLint.Yaml.Node

/-!
# Where a formula stands in its document

A formula starts behind the equals sign of its scalar.  The scalar may have an anchor or tags in
front of it, stand between quotes, or be a block of indented lines.
-/

namespace FormulaLint

namespace Document

/-- Behind the anchors and tags at the start of a line's rest: the number of characters skipped. -/
def propertiesLength : Nat → List Char → Nat
  | 0, _ => 0
  | fuel + 1, cs =>
      match cs with
      | '&' :: _ | '!' :: _ =>
          let word := (cs.takeWhile (fun c => !Text.isBlank c)).length
          let spaces := ((cs.drop word).takeWhile (· == ' ')).length
          word + spaces + propertiesLength fuel (cs.drop (word + spaces))
      | _ => 0

/-- The column of the value of a scalar that starts at a column of a line. -/
def valueColumn (line : List Char) (column : Nat) : Nat :=
  column + propertiesLength line.length (line.drop column)

/-- The first line behind the header of a block scalar that is not blank, with its number. -/
def firstLine? (lines : List (List Char)) (header : Nat) : Option (List Char × Nat) :=
  (lines.zipIdx.drop (header + 1)).find? fun (line, _) => !Text.allBlank line

/-- The place of the character behind the equals sign of a formula, and the indentation of the lines
of a block. -/
def placeOf (lines : List (List Char)) (mark : Yaml.Mark) (style : Yaml.ScalarStyle) : Placement :=
  if style.isBlock then
    match firstLine? lines mark.line with
    | some (line, number) =>
        let indent := Text.indentation line
        ⟨number + 1, indent + 2, indent⟩
    | none => ⟨mark.line + 1, mark.column + 1, 0⟩
  else
    let column := valueColumn (lines[mark.line]?.getD []) mark.column
    let quote := if style.isQuoted then 1 else 0
    ⟨mark.line + 1, column + quote + 2, 0⟩

/-- The lines of a block from the given line on, without their indentation and without blank lines at
the end.  The block ends at a line that is indented less. -/
def blockText (lines : List (List Char)) (first indent : Nat) : List Char :=
  let inBlock := fun line => Text.allBlank line || indent ≤ Text.indentation line
  let block := ((lines.drop first).takeWhile inBlock).map (·.drop indent)
  let kept := (block.reverse.dropWhile Text.allBlank).reverse
  List.intercalate ['\n'] kept

end Document

end FormulaLint
